import Prefilter.Toml.Document

namespace Prefilter.Toml

/-- If it is an integer, it fits in 64 bits. -/
def Scalar.Fits (v : Scalar) : Prop :=
  ∀ n, v = .integer n → Int64.minValue.toInt ≤ n ∧ n ≤ Int64.maxValue.toInt

/-- All integers in it fit in 64 bits. -/
inductive Item.Fits : Item → Prop
  | scalar {v : Scalar} (fits : v.Fits) : Fits (.scalar v)
  | array {items : List Item} (fits : ∀ item ∈ items, Fits item) : Fits (.array items)
  | table {origin : Origin} {entries : List (String × Item)} (fits : ∀ entry ∈ entries, Fits entry.2) :
      Fits (.table origin entries)
  | tables {elements : List (List (String × Item))} (fits : ∀ t ∈ elements, ∀ entry ∈ t, Fits entry.2) :
      Fits (.tables elements)

def Table.Fits (t : Table) : Prop := ∀ entry ∈ t, entry.2.Fits

section readers

/-- What a reader takes from a text is of a kind. -/
def Yields {α : Type} (read : Reader α) (kind : α → Prop) : Prop :=
  ∀ ⦃cs a rest⦄, read cs = some (a, rest) → kind a

theorem fits_of_inRange? {n : Int} {v : Scalar} (h : inRange? n = some v) : v.Fits := by
  rw [inRange?] at h
  split at h
  · rename_i hrange
    obtain rfl := Option.some.inj h
    rintro _ ⟨⟩
    exact hrange
  · cases h

theorem fits_based (base : Nat) (isDigit : Char → Bool) : Yields (based base isDigit) Scalar.Fits := by
  intro cs v rest h
  rw [based] at h
  split at h
  · obtain ⟨_, hrange, heq⟩ := Option.map_eq_some_iff.mp h
    obtain ⟨rfl, -⟩ := Prod.mk.inj heq
    exact fits_of_inRange? hrange
  · cases h

theorem fits_integer? : Yields integer? Scalar.Fits := by
  intro cs v rest h
  rw [integer?.eq_def] at h
  split at h
  · exact fits_based _ _ h
  · exact fits_based _ _ h
  · exact fits_based _ _ h
  · simp only at h
    split at h
    · obtain ⟨_, hrange, heq⟩ := Option.map_eq_some_iff.mp h
      obtain ⟨rfl, -⟩ := Prod.mk.inj heq
      exact fits_of_inRange? hrange
    · cases h

theorem fits_special? : Yields special? Scalar.Fits := by
  intro cs v rest h
  rw [special?] at h
  simp only at h
  split at h
  · cases h
    nofun
  · cases h
    nofun
  · cases h

theorem fits_float? : Yields float? Scalar.Fits := by
  intro cs v rest h
  rw [float?] at h
  simp only at h
  have hfinish {condition : Prop} [Decidable condition] {x : Numeric.Binary64} {rest' : List Char}
      (h : (if condition then none else some (Scalar.float x, rest')) = some (v, rest)) : v.Fits := by
    split at h
    · cases h
    · cases h
      nofun
  split at h
  · exact fits_special? h
  · split at h
    · split at h
      · exact hfinish h
      · exact hfinish h
    · split at h
      · exact hfinish h
      · cases h

theorem fits_datetime? : Yields datetime? Scalar.Fits := by
  intro cs v rest h
  rw [datetime?] at h
  split at h
  · obtain ⟨_, -, heq⟩ := Option.map_eq_some_iff.mp h
    cases heq
    nofun
  · simp only at h
    split at h
    · cases h
      nofun
    · cases h
      nofun

theorem fits_number : Yields number Scalar.Fits := by
  intro cs v rest h
  rcases Option.or_eq_some_iff.mp h with hdate | ⟨-, h⟩
  · exact fits_datetime? hdate
  · rcases Option.or_eq_some_iff.mp h with hfloat | ⟨-, hinteger⟩
    · exact fits_float? hfloat
    · exact fits_integer? hinteger

theorem fits_scalar : Yields scalar Scalar.Fits := by
  intro cs v rest h
  have hstring {read : Option (String × List Char)}
      (h : (read.map fun found => (Scalar.string found.1, found.2)) = some (v, rest)) : v.Fits := by
    obtain ⟨_, -, heq⟩ := Option.map_eq_some_iff.mp h
    cases heq
    nofun
  rw [scalar.eq_def] at h
  split at h
  · exact hstring h
  · exact hstring h
  · cases h
    nofun
  · cases h
    nofun
  · split at h
    · split at h
      · split at h
        · exact hstring h
        · exact hstring h
      · exact hstring h
    · split at h
      · exact fits_number h
      · exact fits_special? h
  · cases h

variable {element : Reader Item} {fuel room : Nat}

theorem fits_arrayItems (h : Yields element Item.Fits) :
    Yields (arrayItems element fuel) fun items => ∀ item ∈ items, item.Fits := by
  induction fuel with
  | zero => nofun
  | succ fuel ih =>
      intro cs items rest hread
      rw [arrayItems] at hread
      split at hread
      · cases hread
        nofun
      · split at hread
        · cases hread
        · rename_i hitem
          split at hread
          · cases hread
            exact List.forall_mem_singleton.mpr (h hitem)
          · obtain ⟨_, hmore, heq⟩ := Option.map_eq_some_iff.mp hread
            cases heq
            exact List.forall_mem_cons.mpr ⟨h hitem, ih hmore⟩
          · cases hread

theorem fits_keyValue (h : Yields element Item.Fits) :
    Yields (keyValue element) fun entry => entry.2.Fits := by
  intro cs entry rest hread
  rw [keyValue] at hread
  split at hread
  · obtain ⟨_, hitem, heq⟩ := Option.map_eq_some_iff.mp hread
    cases heq
    exact h hitem
  · cases hread

theorem fits_inlineEntries (h : Yields element Item.Fits) :
    Yields (inlineEntries element fuel) fun entries => ∀ entry ∈ entries, entry.2.Fits := by
  induction fuel with
  | zero => nofun
  | succ fuel ih =>
      intro cs entries rest hread
      rw [inlineEntries] at hread
      split at hread
      · cases hread
      · rename_i hentry
        split at hread
        · cases hread
          exact List.forall_mem_singleton.mpr (fits_keyValue h hentry)
        · obtain ⟨_, hmore, heq⟩ := Option.map_eq_some_iff.mp hread
          cases heq
          exact List.forall_mem_cons.mpr ⟨fits_keyValue h hentry, ih hmore⟩
        · cases hread

end readers

namespace Table

variable {t t' : Table} {key : String} {item : Item}

theorem Fits.find? (h : t.Fits) (found : t.find? key = some item) : item.Fits := by
  obtain ⟨before, after, rfl, -⟩ := List.lookup_eq_some_iff.mp found
  exact h (key, item) (by simp)

theorem Fits.add (h : t.Fits) (fits : item.Fits) : (t.add key item).Fits :=
  List.forall_mem_append.mpr ⟨h, List.forall_mem_singleton.mpr fits⟩

theorem Fits.replace (h : t.Fits) (fits : item.Fits) : (t.replace key item).Fits := by
  refine List.forall_mem_map.mpr fun entry mem => ?_
  split
  · exact fits
  · exact h entry mem

theorem Fits.remove (h : t.Fits) : (t.remove key).Fits := fun entry mem =>
  h entry (List.mem_filter.mp mem).1

/-- A change to a table keeps to integers that fit, also in what it reports. -/
def KeepsFit {α : Type} (change : Origin → Table → Option (α × Table)) (report : α → Prop) : Prop :=
  ∀ ⦃origin t a t'⦄, t.Fits → change origin t = some (a, t') → report a ∧ t'.Fits

/-- A change at the end of a path is one of the whole table. -/
theorem KeepsFit.visit {α : Type} {change : Origin → Table → Option (α × Table)} {report : α → Prop}
    (h : KeepsFit change report) (dotted : Bool) (path : List String) :
    KeepsFit (visit dotted change path) report := by
  induction path with
  | nil => exact h
  | cons key path ih =>
      intro origin t a t' fits hvisit
      rw [Table.visit.eq_def] at hvisit
      simp only at hvisit
      split at hvisit
      · obtain ⟨⟨_, child⟩, hchild, heq⟩ := Option.map_eq_some_iff.mp hvisit
        cases heq
        obtain ⟨hreport, hfits⟩ := ih (show Table.Fits [] from nofun) hchild
        exact ⟨hreport, fits.add (.table hfits)⟩
      · rename_i hfound
        split at hvisit
        · cases hvisit
        · obtain ⟨⟨_, child⟩, hchild, heq⟩ := Option.map_eq_some_iff.mp hvisit
          cases heq
          cases fits.find? hfound with
          | table hentries =>
              obtain ⟨hreport, hfits⟩ := ih hentries hchild
              exact ⟨hreport, fits.replace (.table hfits)⟩
      · rename_i hfound
        split at hvisit
        · cases hvisit
        · rename_i hlast
          obtain ⟨⟨_, last⟩, hchild, heq⟩ := Option.map_eq_some_iff.mp hvisit
          cases heq
          cases fits.find? hfound with
          | tables helements =>
              obtain ⟨hreport, hfits⟩ := ih (helements _ (List.mem_of_getLast? hlast)) hchild
              refine ⟨hreport, fits.replace (.tables (List.forall_mem_append.mpr ⟨?_, ?_⟩))⟩
              · exact fun t mem => helements t ((List.dropLast_sublist _).subset mem)
              · exact List.forall_mem_singleton.mpr hfits
      · cases hvisit

theorem Fits.insert {origin : Origin} {path : List String} (h : t.Fits) (fits : item.Fits)
    (inserted : t.insert origin path key item = some t') : t'.Fits := by
  obtain ⟨⟨_, _⟩, hvisit, rfl⟩ := Option.map_eq_some_iff.mp inserted
  refine ((KeepsFit.visit ?_ true path : KeepsFit _ fun _ => True) h hvisit).2
  intro origin t _ t' ht hplace
  simp only at hplace
  split at hplace
  · cases hplace
  · split at hplace
    · cases hplace
    · cases hplace
      exact ⟨trivial, ht.add fits⟩

end Table

theorem Table.Fits.of_foldlM {entries : List (List String × Item)} {t t' : Table} (h : t.Fits)
    (fits : ∀ entry ∈ entries, entry.2.Fits)
    (folded : entries.foldlM (fun (t : Table) (path, item) =>
      let (path, key) := splitPath path
      t.insert .inline path key item) t = some t') : t'.Fits := by
  induction entries generalizing t with
  | nil =>
      cases folded
      exact h
  | cons entry entries ih =>
      obtain ⟨hentry, hentries⟩ := List.forall_mem_cons.mp fits
      rw [List.foldlM_cons] at folded
      obtain ⟨_, hinsert, hfolded⟩ := Option.bind_eq_some_iff.mp folded
      exact ih (h.insert hentry hinsert) hentries hfolded

theorem fits_value (room depth : Nat) : Yields (value room depth) Item.Fits := by
  have hscalar {cs rest : List Char} {item : Item}
      (h : ((scalar cs).map fun found => (Item.scalar found.1, found.2)) = some (item, rest)) :
      item.Fits := by
    obtain ⟨_, hread, heq⟩ := Option.map_eq_some_iff.mp h
    cases heq
    exact .scalar (fits_scalar hread)
  induction depth with
  | zero =>
      intro cs item rest h
      rw [value.eq_def] at h
      simp only at h
      split at h
      · split at h
        · cases h
        · exact hscalar h
      · cases h
  | succ depth ih =>
      intro cs item rest h
      rw [value.eq_def] at h
      simp only at h
      split at h
      · obtain ⟨_, hread, heq⟩ := Option.map_eq_some_iff.mp h
        cases heq
        exact .array (fits_arrayItems ih hread)
      · split at h
        · cases h
          exact .table nofun
        · split at h
          · rename_i hentries
            obtain ⟨_, hbuilt, heq⟩ := Option.map_eq_some_iff.mp h
            cases heq
            exact .table (Table.Fits.of_foldlM (show Table.Fits [] from nofun)
              (fits_inlineEntries ih hentries) hbuilt)
          · cases h
      · exact hscalar h

/-- The value of an entry fits; headers have none. -/
def Statement.Fits : Statement → Prop
  | .entry _ item => item.Fits
  | .header _ | .elementHeader _ => True

theorem fits_statement (room : Nat) : Yields (statement room) Statement.Fits := by
  intro cs s rest h
  rw [statement.eq_def] at h
  split at h
  · split at h
    · cases h
      trivial
    · cases h
  · split at h
    · cases h
      trivial
    · cases h
  · obtain ⟨_, hread, heq⟩ := Option.map_eq_some_iff.mp h
    cases heq
    exact fits_keyValue (fits_value room maxDepth) hread

theorem fits_statements {room fuel : Nat} {cs : List Char} {lines : List Statement}
    (h : statements room fuel cs = some lines) : ∀ s ∈ lines, s.Fits := by
  induction fuel generalizing cs lines with
  | zero => cases h
  | succ fuel ih =>
      rw [statements] at h
      split at h
      · cases h
        nofun
      · split at h
        · exact ih h
        · obtain ⟨⟨s, rest⟩, hread, h⟩ := Option.bind_eq_some_iff.mp h
          obtain ⟨_, -, h⟩ := Option.bind_eq_some_iff.mp h
          obtain ⟨more, hmore, h⟩ := Option.bind_eq_some_iff.mp h
          cases h
          exact List.forall_mem_cons.mpr ⟨fits_statement room hread, ih hmore⟩

namespace Draft

structure Fits (d : Draft) : Prop where
  root : d.root.Fits
  entries : d.entries.Fits

variable {d d' : Draft} {root : Table} {path : List String}

theorem Fits.close (h : d.Fits) (closed : d.close = some root) : root.Fits := by
  rw [Draft.close] at closed
  split at closed
  · cases closed
    exact h.entries
  · obtain ⟨⟨_, _⟩, hvisit, rfl⟩ := Option.map_eq_some_iff.mp closed
    refine ((Table.KeepsFit.visit ?_ false _ : Table.KeepsFit _ fun _ => True) h.root hvisit).2
    intro origin t _ t' fits hplace
    simp only at hplace
    split at hplace
    · split at hplace
      · rename_i hfound
        cases hplace
        cases fits.find? hfound with
        | tables helements =>
            exact ⟨trivial, fits.replace (.tables (List.forall_mem_append.mpr
              ⟨helements, List.forall_mem_singleton.mpr h.entries⟩))⟩
      · cases hplace
    · cases hplace
      exact ⟨trivial, fits.add (.table h.entries)⟩

theorem fits_openTable (h : root.Fits) (opened : openTable root path = some d) : d.Fits := by
  obtain ⟨⟨entries, root⟩, hvisit, rfl⟩ := Option.map_eq_some_iff.mp opened
  suffices entries.Fits ∧ root.Fits from ⟨this.2, this.1⟩
  refine Table.KeepsFit.visit ?_ false _ h hvisit
  intro origin t _ t' fits htake
  simp only at htake
  split at htake
  · cases htake
    exact ⟨nofun, fits⟩
  · rename_i hfound
    cases htake
    cases fits.find? hfound with
    | table hentries => exact ⟨hentries, fits.remove⟩
  · cases htake

theorem fits_openElement (h : root.Fits) (opened : openElement root path = some d) : d.Fits := by
  obtain ⟨⟨_, root⟩, hvisit, rfl⟩ := Option.map_eq_some_iff.mp opened
  refine ⟨((Table.KeepsFit.visit ?_ false _ : Table.KeepsFit _ fun _ => True) h hvisit).2, nofun⟩
  intro origin t _ t' fits hreserve
  simp only at hreserve
  split at hreserve
  · cases hreserve
    exact ⟨trivial, fits.add (.tables nofun)⟩
  · cases hreserve
    exact ⟨trivial, fits⟩
  · cases hreserve

theorem Fits.run {s : Statement} (h : d.Fits) (fits : s.Fits) (ran : d.run s = some d') : d'.Fits := by
  cases s with
  | header path =>
      obtain ⟨root, hclosed, hopened⟩ := Option.bind_eq_some_iff.mp ran
      exact fits_openTable (h.close hclosed) hopened
  | elementHeader path =>
      obtain ⟨root, hclosed, hopened⟩ := Option.bind_eq_some_iff.mp ran
      exact fits_openElement (h.close hclosed) hopened
  | entry path item =>
      obtain ⟨_, hinserted, rfl⟩ := Option.map_eq_some_iff.mp ran
      exact ⟨h.root, h.entries.insert fits hinserted⟩

theorem Fits.runAll {lines : List Statement} (h : d.Fits) (fits : ∀ s ∈ lines, s.Fits)
    (ran : lines.foldlM Draft.run d = some d') : d'.Fits := by
  induction lines generalizing d with
  | nil =>
      cases ran
      exact h
  | cons s lines ih =>
      obtain ⟨hs, hlines⟩ := List.forall_mem_cons.mp fits
      obtain ⟨_, hrun, hmore⟩ := Option.bind_eq_some_iff.mp ran
      exact ih (h.run hs hrun) hlines hmore

end Draft

theorem fits_document? {text : String} {root : Table} (h : document? text = some root) : root.Fits := by
  obtain ⟨lines, hlines, h⟩ := Option.bind_eq_some_iff.mp h
  obtain ⟨draft, hdraft, hclosed⟩ := Option.bind_eq_some_iff.mp h
  have hempty : Draft.Fits {} := ⟨nofun, nofun⟩
  exact (hempty.runAll (fits_statements hlines) hdraft).close hclosed

end Prefilter.Toml
