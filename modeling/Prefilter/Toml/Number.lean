import Prefilter.Numeric.Decimal
import Prefilter.Toml.Item
import Prefilter.Toml.Lexical

namespace Prefilter.Toml

open Numeric (Binary64 digitValue? valueOf withDigit)

/-- More digits of a number; an underscore may stand between two digits. -/
def moreDigits (isDigit : Char → Bool) : List Char → List Char × List Char
  | [] => ([], [])
  | '_' :: c :: rest =>
    if isDigit c then
      let (digits, rest) := moreDigits isDigit rest
      (c :: digits, rest)
    else ([], '_' :: c :: rest)
  | c :: rest =>
    if isDigit c then
      let (digits, rest) := moreDigits isDigit rest
      (c :: digits, rest)
    else ([], c :: rest)

def digits1 (isDigit : Char → Bool) : Reader (List Char)
  | [] => none
  | c :: rest =>
    if isDigit c then
      let (digits, rest) := moreDigits isDigit rest
      some (c :: digits, rest)
    else none

def sign : List Char → Bool × List Char
  | '-' :: rest => (true, rest)
  | '+' :: rest => (false, rest)
  | cs => (false, cs)

/-- The digits of a decimal number without leading zeros. -/
def decimalDigits : Reader (List Char)
  | '0' :: rest => some (['0'], rest)
  | cs => digits1 Char.isDigit cs

/-- An integer that fits in 64 bits. -/
def inRange? (n : Int) : Option Scalar :=
  if Int64.minValue.toInt ≤ n ∧ n ≤ Int64.maxValue.toInt then some (.integer n) else none

/-- The digits after a base mark. -/
def based (base : Nat) (isDigit : Char → Bool) (cs : List Char) : Option (Scalar × List Char) :=
  match digits1 isDigit cs with
  | some (digits, rest) => (inRange? (valueOf base digits)).map (·, rest)
  | none => none

def isOctalDigit (c : Char) : Bool := '0' ≤ c && c ≤ '7'

def isBinaryDigit (c : Char) : Bool := c == '0' || c == '1'

def integer? : Reader Scalar
  | '0' :: 'x' :: rest => based 16 (fun c => (digitValue? c).isSome) rest
  | '0' :: 'o' :: rest => based 8 isOctalDigit rest
  | '0' :: 'b' :: rest => based 2 isBinaryDigit rest
  | cs =>
    let (negative, rest) := sign cs
    match decimalDigits rest with
    | some (digits, rest) =>
      let n : Int := valueOf 10 digits
      (inRange? (if negative then -n else n)).map (·, rest)
    | none => none

/-- The part of a float after its point. -/
def fraction? : Reader (List Char)
  | '.' :: rest => digits1 Char.isDigit rest
  | _ => none

/-- An exponent that has reached this limit takes in no more digits. -/
def exponentLimit : Nat := 65536

/-- The size of an exponent. Digits count until the limit is reached, and those after that are read
over, so that `655360` is the same exponent as `65536`. -/
def exponentSize (digits : List Char) : Nat :=
  digits.foldl (fun n c => if n < exponentLimit then withDigit 10 n c else n) 0

def exponent? : Reader Int
  | c :: rest =>
    if c = 'e' ∨ c = 'E' then
      let (negative, rest) := sign rest
      (digits1 Char.isDigit rest).map fun (digits, rest) =>
        let n : Int := exponentSize digits
        (if negative then -n else n, rest)
    else none
  | [] => none

def quietNaNWord : Nat := 0x7ff8000000000000

def special? (cs : List Char) : Option (Scalar × List Char) :=
  let (negative, rest) := sign cs
  let word (magnitude : Nat) (rest : List Char) : Option (Scalar × List Char) :=
    some (.float (.ofMagnitude negative magnitude), rest)
  match rest with
  | 'i' :: 'n' :: 'f' :: rest => word Binary64.infinityWord rest
  | 'n' :: 'a' :: 'n' :: rest => word quietNaNWord rest
  | _ => none

/-- A float has a fraction or an exponent, and does not round to positive infinity. -/
def float? (cs : List Char) : Option (Scalar × List Char) :=
  let (negative, unsigned) := sign cs
  match decimalDigits unsigned with
  | none => special? cs
  | some (whole, rest) =>
    let finish (fraction : List Char) (exponent : Int) (rest : List Char) :
        Option (Scalar × List Char) :=
      let x := Binary64.ofDecimal negative (whole ++ fraction) (exponent - fraction.length)
      if x.isInfinite ∧ ¬negative then none else some (.float x, rest)
    match fraction? rest with
    | some (fraction, rest) =>
      match exponent? rest with
      | some (exponent, rest) => finish fraction exponent rest
      | none => finish fraction 0 rest
    | none =>
      match exponent? rest with
      | some (exponent, rest) => finish [] exponent rest
      | none => none

/-- Exactly `count` digits that stand for a number from `least` to `greatest`. -/
def fixedDigits (count least greatest : Nat) (cs : List Char) : Option (Nat × List Char) :=
  let digits := cs.take count
  let n := valueOf 10 digits
  if digits.length = count ∧ digits.all Char.isDigit ∧ least ≤ n ∧ n ≤ greatest then
    some (n, cs.drop count)
  else none

def literal? (c : Char) : List Char → Option (List Char)
  | [] => none
  | d :: rest => if d = c then some rest else none

def isLeapYear (year : Nat) : Bool := year % 4 == 0 && (year % 100 != 0 || year % 400 == 0)

def daysIn (year month : Nat) : Nat :=
  if month = 2 then if isLeapYear year then 29 else 28
  else if month = 4 ∨ month = 6 ∨ month = 9 ∨ month = 11 then 30
  else 31

/-- The rest after a calendar date. -/
def date? (cs : List Char) : Option (List Char) := do
  let (year, rest) ← fixedDigits 4 0 9999 cs
  let rest ← literal? '-' rest
  let (month, rest) ← fixedDigits 2 1 12 rest
  let rest ← literal? '-' rest
  let (_, rest) ← fixedDigits 2 1 (daysIn year month) rest
  return rest

/-- The rest after a time of day with seconds and perhaps a fraction. -/
def time? (cs : List Char) : Option (List Char) := do
  let (_, rest) ← fixedDigits 2 0 23 cs
  let rest ← literal? ':' rest
  let (_, rest) ← fixedDigits 2 0 59 rest
  let rest ← literal? ':' rest
  let (_, rest) ← fixedDigits 2 0 60 rest
  match rest with
  | '.' :: d :: more => if d.isDigit then return more.dropWhile Char.isDigit else return rest
  | _ => return rest

/-- The rest after the offset of a date and time, if there is one. -/
def skipOffset (cs : List Char) : List Char :=
  let offset : Option (List Char) :=
    match cs with
    | c :: rest =>
      if c = 'Z' ∨ c = 'z' then some rest
      else if c = '+' ∨ c = '-' then do
        let (_, rest) ← fixedDigits 2 0 23 rest
        let rest ← literal? ':' rest
        let (_, rest) ← fixedDigits 2 0 59 rest
        return rest
      else none
    | [] => none
  offset.getD cs

/-- A date, perhaps with a time and an offset, or a time alone. -/
def datetime? (cs : List Char) : Option (Scalar × List Char) :=
  match date? cs with
  | none => (time? cs).map (.datetime, ·)
  | some rest =>
    let timed : Option (List Char) :=
      match rest with
      | c :: time => if c = 'T' ∨ c = 't' ∨ c = ' ' then time? time else none
      | [] => none
    match timed with
    | some rest => some (.datetime, skipOffset rest)
    | none => some (.datetime, rest)

/-- What starts with a digit or a sign. -/
def number (cs : List Char) : Option (Scalar × List Char) :=
  (datetime? cs).or ((float? cs).or (integer? cs))

end Prefilter.Toml
