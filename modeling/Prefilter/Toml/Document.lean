import Prefilter.Toml.Number

namespace Prefilter.Toml

/-- A value that holds no other values. -/
def scalar (cs : List Char) : Option (Scalar × List Char) :=
  match cs with
  | '"' :: '"' :: '"' :: rest =>
    (multilineString '"' true rest).map fun (s, rest) => (.string s, rest)
  | '"' :: rest => (basicString rest).map fun (s, rest) => (.string s, rest)
  | 't' :: 'r' :: 'u' :: 'e' :: rest => some (.boolean true, rest)
  | 'f' :: 'a' :: 'l' :: 's' :: 'e' :: rest => some (.boolean false, rest)
  | c :: rest =>
    if c = literalQuote then
      match rest with
      | d :: e :: more =>
        if d = literalQuote ∧ e = literalQuote then
          (multilineString literalQuote false more).map fun (s, rest) => (.string s, rest)
        else (literalString rest).map fun (s, rest) => (.string s, rest)
      | _ => (literalString rest).map fun (s, rest) => (.string s, rest)
    else if c.isDigit ∨ c = '+' ∨ c = '-' then number cs
    else special? cs
  | [] => none

/-- The elements of an array up to its bracket; a comma may follow the last one. -/
def arrayItems (element : Reader Item) : Nat → Reader (List Item)
  | 0, _ => none
  | fuel + 1, cs =>
    match skipGap false cs with
    | ']' :: rest => some ([], rest)
    | cs =>
      match element cs with
      | none => none
      | some (item, rest) =>
        match skipGap false rest with
        | ']' :: rest => some ([item], rest)
        | ',' :: rest =>
          (arrayItems element fuel rest).map fun (items, rest) => (item :: items, rest)
        | _ => none

/-- A key, an equals sign and a value. -/
def keyValue (value : Reader Item) (cs : List Char) :
    Option ((List String × Item) × List Char) :=
  match keyPath maxKeyParts cs with
  | some (path, '=' :: rest) => (value (skipBlanks rest)).map fun (item, rest) => ((path, item), rest)
  | _ => none

/-- The entries of an inline table up to its brace, on one line; no comma follows the last one. -/
def inlineEntries (value : Reader Item) : Nat → Reader (List (List String × Item))
  | 0, _ => none
  | fuel + 1, cs =>
    match keyValue value cs with
    | none => none
    | some (entry, rest) =>
      match skipBlanks rest with
      | '\x7d' :: rest => some ([entry], rest)
      | ',' :: rest =>
        (inlineEntries value fuel rest).map fun (entries, rest) => (entry :: entries, rest)
      | _ => none

def splitPath (path : List String) : List String × String :=
  (path.dropLast, path.getLast?.getD "")

/-- The table of inline entries, if no two of them clash. -/
def inlineTable? (entries : List (List String × Item)) : Option Table :=
  entries.foldlM (fun (t : Table) (path, item) =>
    let (path, key) := splitPath path
    t.insert .inline path key item) []

/-- A value with at most `depth` arrays and inline tables around each other, none of which has `room`
elements. -/
def value (room : Nat) : Nat → Reader Item
  | 0, cs =>
    match cs with
    | c :: _ =>
      if c = '[' ∨ c = '\x7b' then none else (scalar cs).map fun (v, rest) => (.scalar v, rest)
    | [] => none
  | depth + 1, cs =>
    match cs with
    | '[' :: rest =>
      (arrayItems (value room depth) room rest).map fun (items, rest) => (.array items, rest)
    | '\x7b' :: rest =>
      match skipBlanks rest with
      | '\x7d' :: rest => some (.table .inline [], rest)
      | _ =>
        match inlineEntries (value room depth) room rest with
        | some (entries, rest) => (inlineTable? entries).map fun t => (.table .inline t, rest)
        | none => none
    | cs => (scalar cs).map fun (v, rest) => (.scalar v, rest)

/-- Arrays and inline tables nest fewer than eighty deep. -/
def maxDepth : Nat := 79

inductive Statement where
  | header (path : List String)
  | elementHeader (path : List String)
  | entry (path : List String) (item : Item)
deriving Inhabited

/-- A header between brackets, or an entry. -/
def statement (room : Nat) (cs : List Char) : Option (Statement × List Char) :=
  match cs with
  | '[' :: '[' :: rest =>
    match keyPath maxKeyParts rest with
    | some (path, ']' :: ']' :: rest) => some (.elementHeader path, rest)
    | _ => none
  | '[' :: rest =>
    match keyPath maxKeyParts rest with
    | some (path, ']' :: rest) => some (.header path, rest)
    | _ => none
  | cs =>
    (keyValue (value room maxDepth) cs).map fun ((path, item), rest) => (.entry path item, rest)

/-- The statements of a text; every line ends well. -/
def statements (room : Nat) : Nat → List Char → Option (List Statement)
  | 0, _ => none
  | fuel + 1, cs =>
    match skipBlanks cs with
    | [] => some []
    | cs =>
      match lineEnd? cs with
      | some rest => statements room fuel rest
      | none => do
        let (s, rest) ← statement room cs
        let rest ← lineEnd? rest
        let more ← statements room fuel rest
        return s :: more

/-- A document under construction: the root without the table that is open, and that table. -/
structure Draft where
  root : Table := []
  /-- The path of the open table; none for the root. -/
  path : List String := []
  /-- Whether the open table is an element of a table array. -/
  isElement : Bool := false
  entries : Table := []

namespace Draft

def close (d : Draft) : Option Table :=
  if d.path = [] then some d.entries
  else
    let (parents, key) := splitPath d.path
    let place (_ : Origin) (t : Table) : Option (Unit × Table) :=
      if d.isElement then
        match t.find? key with
        | some (.tables elements) => some ((), t.replace key (.tables (elements ++ [d.entries])))
        | _ => none
      else some ((), t.add key (.table .header d.entries))
    (d.root.visit false place parents .header).map (·.2)

/-- Opens a table. One that headers of its subtables have already implied is taken up, once. -/
def openTable (root : Table) (path : List String) : Option Draft :=
  let (parents, key) := splitPath path
  let take (_ : Origin) (t : Table) : Option (Table × Table) :=
    match t.find? key with
    | none => some ([], t)
    | some (.table .implied entries) => some (entries, t.remove key)
    | some _ => none
  (root.visit false take parents .header).map fun (entries, root) => { root, path, entries }

/-- Opens another element of a table array. -/
def openElement (root : Table) (path : List String) : Option Draft :=
  let (parents, key) := splitPath path
  let reserve (_ : Origin) (t : Table) : Option (Unit × Table) :=
    match t.find? key with
    | none => some ((), t.add key (.tables []))
    | some (.tables _) => some ((), t)
    | some _ => none
  (root.visit false reserve parents .header).map fun (_, root) => { root, path, isElement := true }

def run (d : Draft) : Statement → Option Draft
  | .header path => do openTable (← d.close) path
  | .elementHeader path => do openElement (← d.close) path
  | .entry path item =>
    let (parents, key) := splitPath path
    (d.entries.insert .header parents key item).map fun entries => { d with entries }

end Draft

/-- The root table of a document, which may start with a byte order mark. Neither its lines nor the
elements of an array are more than its characters. -/
def document? (text : String) : Option Table := do
  let cs :=
    match text.toList with
    | '\ufeff' :: rest => rest
    | cs => cs
  let room := cs.length + 1
  let lines ← statements room room cs
  let draft ← lines.foldlM Draft.run {}
  draft.close

end Prefilter.Toml
