import Prefilter.Text.Unprintable
import Prefilter.Text.Combining

namespace Prefilter.Text

/-- Whether one of the ascending ranges `table[low], …, table[high - 1]` holds `n`. -/
def coveredBetween (table : Array (Nat × Nat)) (n low high : Nat) : Bool :=
  if _ : low < high then
    let middle := (low + high) / 2
    match table[middle]? with
    | none => false
    | some (first, last) =>
      if n < first then coveredBetween table n low middle
      else if last < n then coveredBetween table n (middle + 1) high
      else true
  else false
termination_by high - low

def covered (table : Array (Nat × Nat)) (n : Nat) : Bool := coveredBetween table n 0 table.size

/-- Whether a quoted text shows the character as it is, quotes and backslashes apart. -/
def isPlain (c : Char) : Bool :=
  if c.toNat < 0x7f then 0x20 ≤ c.toNat
  else !covered combiningRanges c.toNat && !covered unprintableRanges c.toNat

def hexDigits (n : Nat) : List Char := Nat.toDigits 16 n

/-- One character inside quotes. -/
def quoteChar (c : Char) : List Char :=
  match c with
  | '\x00' => ['\\', '0']
  | '\t' => ['\\', 't']
  | '\n' => ['\\', 'n']
  | '\r' => ['\\', 'r']
  | '"' => ['\\', '"']
  | '\\' => ['\\', '\\']
  | c => if isPlain c then [c] else ['\\', 'u', '\x7b'] ++ hexDigits c.toNat ++ ['\x7d']

/-- A text between double quotes, escaped. -/
def quoted (s : String) : String :=
  String.ofList ('"' :: s.toList.flatMap quoteChar ++ ['"'])

end Prefilter.Text
