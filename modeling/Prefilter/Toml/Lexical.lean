import Prefilter.Numeric.Numeral

namespace Prefilter.Toml

/-- A reader takes characters from the front of a text, and fails or leaves the rest. -/
abbrev Reader (α : Type) := List Char → Option (α × List Char)

def isBlank (c : Char) : Bool := c == ' ' || c == '\t'

def skipBlanks (cs : List Char) : List Char := cs.dropWhile isBlank

/-- Tabs and all characters but the controls. -/
def isTextChar (c : Char) : Bool := c == '\t' || (0x20 ≤ c.toNat && c.toNat != 0x7f)

def newline? : List Char → Option (List Char)
  | '\n' :: rest => some rest
  | '\r' :: '\n' :: rest => some rest
  | _ => none

theorem length_lt_of_newline? {cs rest : List Char} (h : newline? cs = some rest) :
    rest.length < cs.length := by
  unfold newline? at h
  split at h <;> grind

/-- The rest after blanks, a comment and the end of the line or of the text. -/
def lineEnd? (cs : List Char) : Option (List Char) :=
  let rest :=
    match skipBlanks cs with
    | '#' :: comment => comment.dropWhile isTextChar
    | rest => rest
  match rest with
  | [] => some []
  | rest => newline? rest

/-- Skips blanks, line ends and comments between the elements of an array. -/
def skipGap (inComment : Bool) : List Char → List Char
  | [] => []
  | '\n' :: rest => skipGap false rest
  | '\r' :: '\n' :: rest => skipGap false rest
  | c :: rest =>
    if inComment then if isTextChar c then skipGap true rest else c :: rest
    else if isBlank c then skipGap false rest
    else if c = '#' then skipGap true rest
    else c :: rest

/-- The character that hexadecimal digits name; surrogates name none. -/
def codePoint? (digits : List Char) : Option Char :=
  match digits.mapM Numeric.digitValue? with
  | none => none
  | some values =>
    let n := values.foldl (16 * · + ·) 0
    if n < 0xd800 ∨ (0xdfff < n ∧ n < 0x110000) then some (Char.ofNat n) else none

def escape? : Reader Char
  | 'b' :: rest => some ('\x08', rest)
  | 't' :: rest => some ('\t', rest)
  | 'n' :: rest => some ('\n', rest)
  | 'f' :: rest => some ('\x0c', rest)
  | 'r' :: rest => some ('\r', rest)
  | '"' :: rest => some ('"', rest)
  | '\\' :: rest => some ('\\', rest)
  | 'u' :: a :: b :: c :: d :: rest => (codePoint? [a, b, c, d]).map (·, rest)
  | 'U' :: a :: b :: c :: d :: e :: f :: g :: h :: rest =>
    (codePoint? [a, b, c, d, e, f, g, h]).map (·, rest)
  | _ => none

theorem length_lt_of_escape? {cs rest : List Char} {c : Char} (h : escape? cs = some (c, rest)) :
    rest.length < cs.length := by
  unfold escape? at h
  split at h <;>
    simp only [Option.map_eq_some_iff, Option.some.injEq, Prod.mk.injEq, reduceCtorEq] at h <;>
    simp only [List.length_cons] <;> grind

/-- The rest of a string in double quotes, with `read` what has been read so far, backwards. -/
def basicBody (read cs : List Char) : Option (String × List Char) :=
  match cs with
  | [] => none
  | '"' :: rest => some (String.ofList read.reverse, rest)
  | '\\' :: rest =>
    match _ : escape? rest with
    | some (c, rest) => basicBody (c :: read) rest
    | none => none
  | c :: rest => if isTextChar c then basicBody (c :: read) rest else none
termination_by cs.length
decreasing_by
  · have := length_lt_of_escape? ‹_›
    grind
  · simp

def basicString (cs : List Char) : Option (String × List Char) := basicBody [] cs

def literalQuote : Char := '\x27'

/-- The rest of a string in single quotes. -/
def literalString (cs : List Char) : Option (String × List Char) :=
  match cs.span fun c => isTextChar c && c != literalQuote with
  | (body, c :: rest) => if c = literalQuote then some (String.ofList body, rest) else none
  | (_, []) => none

/-- How many of the first five characters are the quote, as a run. -/
def quoteRun (quote : Char) (cs : List Char) : Nat :=
  ((cs.take 5).takeWhile (· == quote)).length

/-- Skips blanks and line ends. -/
def skipBlankLines : List Char → List Char
  | [] => []
  | '\n' :: rest => skipBlankLines rest
  | '\r' :: '\n' :: rest => skipBlankLines rest
  | c :: rest => if isBlank c then skipBlankLines rest else c :: rest

theorem length_skipBlankLines_le (cs : List Char) : (skipBlankLines cs).length ≤ cs.length := by
  fun_induction skipBlankLines cs <;> grind

/-- The rest after a backslash that ends its line: blanks and line ends up to the next text go. -/
def continuation? (cs : List Char) : Option (List Char) :=
  (newline? (skipBlanks cs)).map skipBlankLines

theorem length_lt_of_continuation? {cs rest : List Char} (h : continuation? cs = some rest) :
    rest.length < cs.length := by
  obtain ⟨line, hline, rfl⟩ := Option.map_eq_some_iff.1 h
  have := length_lt_of_newline? hline
  have := length_skipBlankLines_le line
  have : (skipBlanks cs).length ≤ cs.length := (List.dropWhile_sublist isBlank).length_le
  omega

/-- The rest of a string in triple quotes. A run of three to five quotes ends it; the first ones of a
longer run than three belong to the text. -/
def multilineBody (quote : Char) (escapes : Bool) (read cs : List Char) :
    Option (String × List Char) :=
  match cs with
  | [] => none
  | c :: rest =>
    if c = quote then
      let run := quoteRun quote (c :: rest)
      if 3 ≤ run then
        some (String.ofList (List.replicate (run - 3) quote ++ read).reverse, (c :: rest).drop run)
      else multilineBody quote escapes (c :: read) rest
    else if escapes && c == '\\' then
      match _ : continuation? rest with
      | some rest => multilineBody quote escapes read rest
      | none =>
        match _ : escape? rest with
        | some (c, rest) => multilineBody quote escapes (c :: read) rest
        | none => none
    else if isTextChar c then multilineBody quote escapes (c :: read) rest
    else
      match _ : newline? (c :: rest) with
      | some rest => multilineBody quote escapes ('\n' :: read) rest
      | none => none
termination_by cs.length
decreasing_by
  · simp
  · have := length_lt_of_continuation? ‹_›
    grind
  · have := length_lt_of_escape? ‹_›
    grind
  · simp
  · exact length_lt_of_newline? ‹_›

/-- A string in triple quotes; a line end right after the opening ones is not part of it. -/
def multilineString (quote : Char) (escapes : Bool) (cs : List Char) : Option (String × List Char) :=
  multilineBody quote escapes [] ((newline? cs).getD cs)

def isBareKeyChar (c : Char) : Bool := c.isAlphanum || c == '_' || c == '-'

def simpleKey (cs : List Char) : Option (String × List Char) :=
  match cs with
  | [] => none
  | c :: rest =>
    if c = '"' then basicString rest
    else if c = literalQuote then literalString rest
    else
      match cs.span isBareKeyChar with
      | ([], _) => none
      | (key, rest) => some (String.ofList key, rest)

/-- A dotted key with at most `limit` parts and blanks around each. -/
def keyPath : Nat → Reader (List String)
  | 0, _ => none
  | limit + 1, cs =>
    match simpleKey (skipBlanks cs) with
    | none => none
    | some (key, rest) =>
      match skipBlanks rest with
      | '.' :: rest => (keyPath limit rest).map fun (path, rest) => (key :: path, rest)
      | rest => some ([key], rest)

/-- Dotted keys have fewer than eighty parts. -/
def maxKeyParts : Nat := 79

end Prefilter.Toml
