import Mathlib.Data.List.TakeDrop
import Prefilter.Proofs.Toml.Numeral

namespace Prefilter.Toml

variable {key name : String} {c : Char} {cs text line rest : List Char} {item : Item} {s : Statement}
  {room fuel : Nat}

theorem skipBlanks_cons (h : ¬ isBlank c) : skipBlanks (c :: cs) = c :: cs :=
  List.dropWhile_cons_of_neg h

theorem not_isBlank_of_isBareKeyChar (h : isBareKeyChar c) : ¬ isBlank c := by
  rw [isBlank, Bool.or_eq_true, beq_iff_eq, beq_iff_eq]
  rintro (rfl | rfl) <;> exact absurd h (by decide)

/-- A key that needs no quotes. -/
structure IsBare (key : String) : Prop where
  ne_nil : key.toList ≠ []
  bare : ∀ c ∈ key.toList, isBareKeyChar c

namespace IsBare

variable (h : IsBare key)

include h

theorem exists_cons : ∃ c tail, key.toList = c :: tail ∧ isBareKeyChar c := by
  obtain ⟨c, tail, htext⟩ := List.exists_cons_of_ne_nil h.ne_nil
  exact ⟨c, tail, htext, h.bare c (by rw [htext]; exact List.mem_cons_self)⟩

theorem simpleKey_append (stop : ∀ c ∈ rest.head?, ¬ isBareKeyChar c) :
    simpleKey (key.toList ++ rest) = some (key, rest) := by
  have hspan : (key.toList ++ rest).span isBareKeyChar = (key.toList, rest) := by
    rw [List.span_eq_takeWhile_dropWhile, List.takeWhile_append_of_pos h.bare,
      List.dropWhile_append_of_pos h.bare]
    cases rest with
    | nil => simp
    | cons c rest => simp [stop c rfl]
  obtain ⟨c, tail, htext, hc⟩ := h.exists_cons
  have hquote : c ≠ '"' ∧ c ≠ literalQuote := by
    constructor <;> rintro rfl <;> exact absurd hc (by decide)
  rw [htext, List.cons_append] at hspan ⊢
  rw [simpleKey.eq_def]
  simp only [hquote.1, hquote.2, if_false, hspan]
  rw [← htext, String.ofList_toList]

theorem keyPath_append (stop : ∀ c ∈ rest.head?, ¬ isBareKeyChar c)
    (last : (skipBlanks rest).head? ≠ some '.') :
    keyPath maxKeyParts (key.toList ++ rest) = some ([key], skipBlanks rest) := by
  have hstart : skipBlanks (key.toList ++ rest) = key.toList ++ rest := by
    obtain ⟨c, tail, htext, hc⟩ := h.exists_cons
    rw [htext, List.cons_append, skipBlanks_cons (not_isBlank_of_isBareKeyChar hc)]
  rw [maxKeyParts, keyPath, hstart, h.simpleKey_append stop]
  simp only
  split
  · rename_i heq
    rw [heq] at last
    exact absurd rfl last
  · rfl

end IsBare

/-- At the end of a line, a text stands for an item. -/
structure Denotes (text : List Char) (item : Item) : Prop where
  starts : ∃ c tail, text = c :: tail ∧ ¬ isBlank c
  value : ∀ room rest, LineEnds rest → value room maxDepth (text ++ rest) = some (item, rest)

theorem value_of_scalar {v : Scalar} (h : scalar (c :: cs) = some (v, rest)) (bracket : c ≠ '[')
    (brace : c ≠ '\x7b') : value room maxDepth (c :: cs) = some (.scalar v, rest) := by
  rw [maxDepth, value.eq_def]
  simp only
  split <;> rename_i heq
  · exact absurd (List.cons.inj heq).1 bracket
  · exact absurd (List.cons.inj heq).1 brace
  · rw [h, Option.map_some]

theorem denotes_toDigits {n : Nat} (h : n ≤ Int64.maxValue.toInt.toNat) :
    Denotes (Nat.toDigits 10 n) (.scalar (.integer n)) := by
  have hnumeral := isNumeral_toDigits n
  have hrange : inRange? (n : Int) = some (.integer n) := by
    refine if_pos ⟨?_, ?_⟩
    · exact Int.le_trans (by decide) (Int.natCast_nonneg n)
    · have hle : (n : Int) ≤ (Int64.maxValue.toInt.toNat : Int) := Int.ofNat_le.mpr h
      exact Int.le_trans hle (by decide)
  obtain ⟨c, tail, htext, hc⟩ := hnumeral.exists_cons
  refine ⟨⟨c, tail, htext, ?_⟩, fun room rest ends => ?_⟩
  · rw [isBlank, Bool.or_eq_true, beq_iff_eq, beq_iff_eq]
    rintro (rfl | rfl) <;> exact absurd hc (by decide)
  · have hscalar := hnumeral.scalar_append ends
    rw [valueOf_toDigits, hrange, Option.map_some, htext, List.cons_append] at hscalar
    rw [htext, List.cons_append]
    refine value_of_scalar hscalar ?_ ?_ <;> rintro rfl <;> exact absurd hc (by decide)

theorem denotes_toString (b : Bool) : Denotes (toString b).toList (.scalar (.boolean b)) := by
  cases b with
  | true => exact ⟨⟨_, _, rfl, by decide⟩, fun _ _ _ => value_of_scalar rfl (by decide) (by decide)⟩
  | false => exact ⟨⟨_, _, rfl, by decide⟩, fun _ _ _ => value_of_scalar rfl (by decide) (by decide)⟩

/-- A line reads as a statement. -/
structure Reads (line : List Char) (s : Statement) : Prop where
  starts : ∃ c tail, line = c :: tail ∧ (isBareKeyChar c ∨ c = '[')
  statement : ∀ room rest, LineEnds rest → statement room (line ++ rest) = some (s, rest)

theorem reads_header (h : IsBare name) : Reads ('[' :: name.toList ++ [']']) (.header [name]) where
  starts := ⟨_, _, rfl, .inr rfl⟩
  statement room rest _ := by
    obtain ⟨c, tail, htext, hc⟩ := h.exists_cons
    have hpath : keyPath maxKeyParts (name.toList ++ ']' :: rest) = some ([name], ']' :: rest) :=
      h.keyPath_append (by rintro c ⟨⟩; decide) (by simp [skipBlanks_cons (by decide : ¬ isBlank ']')])
    have hline : '[' :: name.toList ++ [']'] ++ rest = '[' :: (name.toList ++ ']' :: rest) := by simp
    rw [hline, Toml.statement.eq_def]
    split <;> rename_i heq
    · rw [htext, List.cons_append] at heq
      obtain ⟨rfl, -⟩ := List.cons.inj (List.cons.inj heq).2
      exact absurd hc (by decide)
    · rw [← (List.cons.inj heq).2, hpath]
      rfl
    · exact absurd rfl (heq _)

theorem keyValue_append (h : IsBare key) (denotes : Denotes text item) (ends : LineEnds rest) :
    keyValue (value room maxDepth) (key.toList ++ ' ' :: '=' :: ' ' :: (text ++ rest)) =
      some (([key], item), rest) := by
  obtain ⟨c, tail, htext, hc⟩ := denotes.starts
  have hpath : keyPath maxKeyParts (key.toList ++ ' ' :: '=' :: ' ' :: (text ++ rest)) =
      some ([key], '=' :: ' ' :: (text ++ rest)) :=
    h.keyPath_append (by rintro c ⟨⟩; decide) (by rintro ⟨⟩)
  have hvalue : skipBlanks (' ' :: (text ++ rest)) = text ++ rest := by
    rw [htext, List.cons_append]
    exact skipBlanks_cons hc
  rw [keyValue, hpath]
  simp only [hvalue, denotes.value room rest ends, Option.map_some]

theorem reads_entry (h : IsBare key) (denotes : Denotes text item) :
    Reads (key.toList ++ ' ' :: '=' :: ' ' :: text) (.entry [key] item) where
  starts := by
    obtain ⟨c, tail, htext, hc⟩ := h.exists_cons
    exact ⟨c, _, by rw [htext, List.cons_append], .inl hc⟩
  statement room rest ends := by
    obtain ⟨c, tail, htext, hc⟩ := h.exists_cons
    have hbracket : c ≠ '[' := by
      rintro rfl
      exact absurd hc (by decide)
    have hread := @keyValue_append key text rest item room h denotes ends
    rw [List.append_assoc, List.cons_append, List.cons_append, List.cons_append]
    rw [htext, List.cons_append] at hread ⊢
    rw [Toml.statement.eq_def]
    split <;> rename_i heq
    · exact absurd (List.cons.inj heq).1 hbracket
    · exact absurd (List.cons.inj heq).1 hbracket
    · rw [hread, Option.map_some]

theorem Reads.statements_append (h : Reads line s) (ends : LineEnds rest) :
    statements room (fuel + 1) (line ++ rest) =
      (lineEnd? rest).bind fun rest => (statements room fuel rest).map (s :: ·) := by
  obtain ⟨c, tail, hline, hc⟩ := h.starts
  have hblank : ¬ isBlank c := by
    rcases hc with hc | rfl
    · exact not_isBlank_of_isBareKeyChar hc
    · decide
  have hother : c ≠ '#' ∧ c ≠ '\n' ∧ c ≠ '\r' := by
    refine ⟨?_, ?_, ?_⟩ <;> rintro rfl <;> rcases hc with hc | hc <;> exact absurd hc (by decide)
  have hnoEnd : lineEnd? (c :: (tail ++ rest)) = none := by
    have hnewline : newline? (c :: (tail ++ rest)) = none := by
      rw [newline?.eq_def]
      split <;> rename_i heq
      · exact absurd (List.cons.inj heq).1 hother.2.1
      · exact absurd (List.cons.inj heq).1 hother.2.2
      · rfl
    rw [lineEnd?, skipBlanks_cons hblank]
    simp only [hother.1, List.cons.injEq, false_and, imp_self, implies_true, hnewline]
  have hread := h.statement room rest ends
  rw [statements]
  rw [hline, List.cons_append] at hread ⊢
  rw [skipBlanks_cons hblank]
  simp only [hnoEnd, hread]
  cases hend : lineEnd? rest with
  | none => simp [hend]
  | some rest' => cases hmore : statements room fuel rest' <;> simp [hend, hmore]

/-- What follows on the first line of a text: the other lines, and perhaps the end of the last one. -/
def furtherLines (lines : List (List Char)) (final : List Char) : List Char :=
  lines.flatMap ('\n' :: ·) ++ final

variable {lines : List (List Char × Statement)} {final : List Char}

theorem furtherLines_cons (lines : List (List Char)) (final : List Char) :
    furtherLines (line :: lines) final = '\n' :: (line ++ furtherLines lines final) := by
  simp [furtherLines]

theorem length_le_furtherLines (lines : List (List Char)) (final : List Char) :
    lines.length ≤ (furtherLines lines final).length := by
  induction lines with
  | nil => exact Nat.zero_le _
  | cons line lines ih =>
      rw [furtherLines_cons, List.length_cons, List.length_cons, List.length_append]
      omega

theorem lineEnds_furtherLines (lines : List (List Char)) (closed : final = [] ∨ final = ['\n']) :
    LineEnds (furtherLines lines final) := by
  cases lines with
  | nil => rcases closed with rfl | rfl <;> simp [LineEnds, furtherLines]
  | cons line lines =>
      rw [furtherLines_cons]
      rintro c ⟨⟩
      rfl

theorem statements_lines (reads : Reads line s) (all : ∀ entry ∈ lines, Reads entry.1 entry.2)
    (closed : final = [] ∨ final = ['\n']) (enough : lines.length + 1 < fuel) :
    statements room fuel (line ++ furtherLines (lines.map (·.1)) final) =
      some (s :: lines.map (·.2)) := by
  induction lines generalizing line s fuel with
  | nil =>
      obtain ⟨fuel, rfl⟩ := Nat.exists_eq_add_of_le' (show 2 ≤ fuel from enough)
      have hend : lineEnd? (furtherLines [] final) = some [] := by
        rcases closed with rfl | rfl <;> rfl
      rw [List.map_nil, reads.statements_append (lineEnds_furtherLines [] closed), hend]
      rfl
  | cons next lines ih =>
      obtain ⟨hnext, hlines⟩ := List.forall_mem_cons.mp all
      obtain ⟨fuel, rfl⟩ := Nat.exists_eq_add_of_le' (show 1 ≤ fuel by omega)
      rw [List.map_cons, reads.statements_append (lineEnds_furtherLines _ closed), furtherLines_cons]
      have hmore := ih hnext hlines (show lines.length + 1 < fuel by simpa using enough)
      have hend (cs : List Char) : lineEnd? ('\n' :: cs) = some cs := rfl
      rw [hend, Option.bind_some, hmore, Option.map_some, List.map_cons]

namespace Draft

theorem foldlM_run_entries {d : Draft} {table : Table}
    (nodup : ((d.entries ++ table).map (·.1)).Nodup) :
    (table.map fun entry => Statement.entry [entry.1] entry.2).foldlM Draft.run d =
      some { d with entries := d.entries ++ table } := by
  induction table generalizing d with
  | nil => simp
  | cons entry table ih =>
      have hnew : d.entries.find? entry.1 = none := by
        refine List.lookup_eq_none_iff.mpr fun other mem => ?_
        rw [List.map_append, List.map_cons] at nodup
        have hne := (List.nodup_append.mp nodup).2.2 other.1 (List.mem_map_of_mem mem) entry.1
          List.mem_cons_self
        simpa using hne.symm
      have hrun : d.run (.entry [entry.1] entry.2) =
          some { d with entries := d.entries ++ [entry] } := by
        have hinsert : d.entries.insert .header [] entry.1 entry.2 = some (d.entries ++ [entry]) := by
          simp [Table.insert, Table.visit, hnew, Table.add]
        exact congrArg (Option.map fun entries => { d with entries }) hinsert
      rw [List.map_cons, List.foldlM_cons, hrun, Option.bind_eq_bind, Option.bind_some, ih]
      · simp
      · simpa using nodup

theorem foldlM_run_table {table : Table} (nodup : (table.map (·.1)).Nodup) :
    ((Statement.header [name] :: table.map fun entry => .entry [entry.1] entry.2).foldlM
      Draft.run {}).bind Draft.close = some [(name, .table .header table)] := by
  have hopened : Draft.run {} (.header [name]) = some { path := [name] } := rfl
  rw [List.foldlM_cons, hopened, Option.bind_eq_bind, Option.bind_some,
    foldlM_run_entries (d := { path := [name] }) nodup]
  rfl

end Draft

/-- A key of a table with the text of its value. -/
structure Row where
  key : String
  text : String
  item : Item

namespace Row

def written (row : Row) : String := "\n" ++ row.key ++ " = " ++ row.text

/-- The row can be read as it is written. -/
structure IsPlain (row : Row) : Prop where
  key : IsBare row.key
  text : Denotes row.text.toList row.item

theorem toList_written (row : Row) :
    row.written.toList = '\n' :: (row.key.toList ++ ' ' :: '=' :: ' ' :: row.text.toList) := by
  simp [written]

end Row

/-- A text that has the header of a table and one line a row reads as the table of the rows. -/
theorem document?_of_rows {rows : List Row} {final : String} (bare : IsBare name)
    (plain : ∀ row ∈ rows, row.IsPlain) (nodup : (rows.map (·.key)).Nodup)
    (closed : final = "" ∨ final = "\n") :
    document? ("[" ++ name ++ "]" ++ String.join (rows.map Row.written) ++ final) =
      some [(name, .table .header (rows.map fun row => (row.key, row.item)))] := by
  let lines : List (List Char × Statement) := rows.map fun row =>
    (row.key.toList ++ ' ' :: '=' :: ' ' :: row.text.toList, .entry [row.key] row.item)
  have htext : ("[" ++ name ++ "]" ++ String.join (rows.map Row.written) ++ final).toList =
      ('[' :: name.toList ++ [']']) ++ furtherLines (lines.map (·.1)) final.toList := by
    simp [furtherLines, lines, String.toList_join, List.flatMap_map, Row.toList_written]
  have hclosed : final.toList = [] ∨ final.toList = ['\n'] := by
    rcases closed with rfl | rfl
    · exact .inl rfl
    · exact .inr rfl
  have hall : ∀ entry ∈ lines, Reads entry.1 entry.2 :=
    List.forall_mem_map.mpr fun row mem => reads_entry (plain row mem).key (plain row mem).text
  have hlines {room fuel : Nat} (enough : lines.length + 1 < fuel) :=
    @statements_lines _ _ room fuel lines final.toList (reads_header bare) hall hclosed enough
  have hnodup : ((rows.map fun row => (row.key, row.item)).map (·.1)).Nodup := by
    rwa [List.map_map]
  have hbuilt := @Draft.foldlM_run_table name (rows.map fun row => (row.key, row.item)) hnodup
  have hstatements : lines.map (·.2) =
      (rows.map fun row => (row.key, row.item)).map fun entry => .entry [entry.1] entry.2 := by
    simp [lines]
  let cs := ('[' :: name.toList ++ [']']) ++ furtherLines (lines.map (·.1)) final.toList
  have hunfolded : document? ("[" ++ name ++ "]" ++ String.join (rows.map Row.written) ++ final) =
      (statements (cs.length + 1) (cs.length + 1) cs).bind fun lines =>
        (lines.foldlM Draft.run {}).bind Draft.close := by
    rw [document?, htext]
    rfl
  have henough : lines.length + 1 < cs.length + 1 := by
    have hle := length_le_furtherLines (lines.map (·.1)) final.toList
    simp only [cs, List.length_append, List.length_cons, List.length_map] at hle ⊢
    omega
  rw [hunfolded, hlines henough, Option.bind_some, hstatements, hbuilt]

end Prefilter.Toml
