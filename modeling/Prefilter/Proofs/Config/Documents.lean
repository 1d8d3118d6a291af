import Mathlib.Data.Option.Basic
import Mathlib.Data.List.Nodup
import Prefilter.Config.Document
import Prefilter.Proofs.Toml.Lines
import Prefilter.Proofs.Toml.Range

namespace Prefilter.Settings

/-- The value of a key. -/
inductive Value where
  | number (n : UInt64)
  | flag (b : Bool)
deriving DecidableEq

namespace Value

def text : Value → String
  | number n => toString n.toNat
  | flag b => toString b

def item : Value → Toml.Item
  | number n => .scalar (.integer n.toNat)
  | flag b => .scalar (.boolean b)

/-- It is no number, or one that fits in 64 bits with a sign. -/
def Fits (v : Value) : Prop := ∀ n, v = number n → n.toNat ≤ Int64.maxValue.toInt.toNat

end Value

/-- The value of a key, if it is present. -/
def value? (s : Settings) : Key → Option Value
  | .preFilterShardSize => s.preFilterShardSize.map .number
  | .maxConcurrentTasks => some (.number s.maxConcurrentTasks)
  | .maxQueuedTasks => some (.number s.maxQueuedTasks)
  | .alwaysQueryOneShard => some (.flag s.alwaysQueryOneShard)
  | .probeTimeoutMs => s.probeTimeoutMs.map .number

/-- All numbers fit in 64 bits with a sign. -/
def Fits (s : Settings) : Prop := ∀ key v, s.value? key = some v → v.Fits

/-- The document with these lines. -/
def document (lines : List (Key × Value)) : String :=
  "[" ++ tableName ++ "]" ++
    String.join (lines.map fun line => "\n" ++ line.1.name ++ " = " ++ line.2.text)

variable {s t : Settings} {key : Key} {v : Value} {final : String}

theorem ext_value? (h : ∀ key, s.value? key = t.value? key) : s = t := by
  have hsize := h .preFilterShardSize
  have htasks := h .maxConcurrentTasks
  have hqueued := h .maxQueuedTasks
  have hone := h .alwaysQueryOneShard
  have htimeout := h .probeTimeoutMs
  have hnumber : Function.Injective Value.number := fun _ _ => Value.number.inj
  cases s
  cases t
  rw [Settings.mk.injEq]
  exact ⟨Option.map_injective hnumber hsize, Value.number.inj (Option.some.inj htasks),
    Value.number.inj (Option.some.inj hqueued), Value.flag.inj (Option.some.inj hone),
    Option.map_injective hnumber htimeout⟩

theorem Key.ofName?_name (key : Key) : ofName? key.name = some key := by
  cases key <;> decide

theorem Key.isBare_name (key : Key) : Toml.IsBare key.name := by
  cases key <;> exact ⟨by decide, List.all_eq_true.mp (by decide)⟩

theorem Value.denotes (h : v.Fits) : Toml.Denotes v.text.toList v.item := by
  cases v with
  | number n =>
      rw [Value.text, Nat.toString_eq_ofList_toDigits, String.toList_ofList]
      exact Toml.denotes_toDigits (h n rfl)
  | flag b => exact Toml.denotes_toString b

theorem readWord_item (wanted : WantedValue) (n : UInt64) :
    readWord wanted (Value.number n).item = .ok n := by
  simp [readWord, Value.item]

/-- A number is put under a key. -/
def Puts (key : Key) (s : Settings) (put : UInt64 → Settings) : Prop :=
  ∀ n other, (put n).value? other = if other = key then some (.number n) else s.value? other

theorem exists_read (has : s.value? key = some v) (t : Settings) :
    ∃ t', t.read key v.item = .ok t' ∧
      ∀ other, t'.value? other = if other = key then some v else t.value? other := by
  have hnumber {n : UInt64} {wanted : WantedValue} {put : UInt64 → Settings} (puts : Puts key t put) :
      ∃ t', (readWord wanted (Value.number n).item).map put = .ok t' ∧
        ∀ other, t'.value? other = if other = key then some (.number n) else t.value? other :=
    ⟨put n, by rw [readWord_item]; rfl, puts n⟩
  cases key with
  | preFilterShardSize =>
      obtain ⟨n, -, rfl⟩ := Option.map_eq_some_iff.mp has
      simp only [read]
      exact hnumber fun _ other => by cases other <;> rfl
  | maxConcurrentTasks =>
      obtain rfl := Option.some.inj has
      simp only [read]
      exact hnumber fun _ other => by cases other <;> rfl
  | maxQueuedTasks =>
      obtain rfl := Option.some.inj has
      simp only [read]
      exact hnumber fun _ other => by cases other <;> rfl
  | alwaysQueryOneShard =>
      obtain rfl := Option.some.inj has
      exact ⟨{ t with alwaysQueryOneShard := s.alwaysQueryOneShard }, rfl,
        fun other => by cases other <;> rfl⟩
  | probeTimeoutMs =>
      obtain ⟨n, -, rfl⟩ := Option.map_eq_some_iff.mp has
      simp only [read]
      exact hnumber fun _ other => by cases other <;> rfl

theorem exists_foldlM_read {lines : List (Key × Value)}
    (has : ∀ line ∈ lines, s.value? line.1 = some line.2) (t : Settings) :
    ∃ t', (lines.map fun line => (line.1.name, line.2.item)).foldlM (fun s (name, item) =>
        match Key.ofName? name with
        | some key => s.read key item
        | none => .ok s) t = Except.ok t' ∧
      ∀ key, t'.value? key = if key ∈ lines.map (·.1) then s.value? key else t.value? key := by
  induction lines generalizing t with
  | nil => exact ⟨t, rfl, fun key => (if_neg List.not_mem_nil).symm⟩
  | cons line lines ih =>
      obtain ⟨hline, hlines⟩ := List.forall_mem_cons.mp has
      obtain ⟨u, hread, hu⟩ := exists_read hline t
      obtain ⟨t', hfold, ht'⟩ := ih hlines u
      refine ⟨t', ?_, fun key => ?_⟩
      · rw [List.map_cons, List.foldlM_cons]
        simp only [Key.ofName?_name, hread]
        exact hfold
      · rw [ht', hu, List.map_cons]
        by_cases hkey : key = line.1
        · subst hkey
          simp [hline]
        · rw [if_neg hkey]
          exact if_congr (List.mem_cons.trans (or_iff_right hkey)).symm rfl rfl

theorem fault?_eq_none_iff : s.fault? = none ↔ s.value? .maxConcurrentTasks ≠ some (.number 0) ∧
    s.value? .maxQueuedTasks ≠ some (.number 0) ∧ s.value? .probeTimeoutMs ≠ some (.number 0) := by
  rw [fault?]
  split_ifs <;> simp_all [value?]

/-- Lines with the values that valid settings have for some keys, whose numbers fit in 64 bits, are
read as the settings with these values and the default ones for all other keys. -/
theorem exists_ofToml_document {lines : List (Key × Value)} (valid : s.fault? = none) (fits : s.Fits)
    (nodup : (lines.map (·.1)).Nodup) (has : ∀ line ∈ lines, s.value? line.1 = some line.2)
    (closed : final = "" ∨ final = "\n") :
    ∃ t, ofToml (document lines ++ final) = .ok t ∧ ∀ key, t.value? key =
      if key ∈ lines.map (·.1) then s.value? key else ({} : Settings).value? key := by
  let rows : List Toml.Row := lines.map fun line => ⟨line.1.name, line.2.text, line.2.item⟩
  have hplain : ∀ row ∈ rows, row.IsPlain := List.forall_mem_map.mpr fun line mem =>
    ⟨line.1.isBare_name, Value.denotes (fits _ _ (has line mem))⟩
  have hname : Function.Injective Key.name := by
    intro a b h
    have hread := a.ofName?_name
    rw [h, b.ofName?_name] at hread
    exact (Option.some.inj hread).symm
  have hnodup : (rows.map (·.key)).Nodup := by
    simpa [rows, Function.comp_def] using nodup.map hname
  have htable : Toml.IsBare tableName := ⟨by decide, List.all_eq_true.mp (by decide)⟩
  have hdocument := Toml.document?_of_rows htable hplain hnodup closed
  obtain ⟨t, hfold, ht⟩ := exists_foldlM_read has {}
  have hvalid : t.fault? = none := by
    obtain ⟨hconcurrency, hqueue, htimeout⟩ := fault?_eq_none_iff.mp valid
    refine fault?_eq_none_iff.mpr ⟨?_, ?_, ?_⟩ <;> rw [ht] <;> split
    · exact hconcurrency
    · decide
    · exact hqueue
    · decide
    · exact htimeout
    · decide
  have htext : document lines ++ final =
      "[" ++ tableName ++ "]" ++ String.join (rows.map Toml.Row.written) ++ final := by
    simp [document, rows, Toml.Row.written, Function.comp_def]
  have hread : ofDocument [(tableName, .table .header (rows.map fun row => (row.key, row.item)))] =
      .ok t := by
    have hrows : rows.map (fun row => (row.key, row.item)) =
        lines.map fun line => (line.1.name, line.2.item) := by
      simp [rows]
    rw [hrows]
    exact hfold
  refine ⟨t, ?_, ht⟩
  rw [ofToml, htext, hdocument]
  simp only [hread, hvalid]

section writing

/-- The lines of all keys that are present. -/
def lines (s : Settings) : List (Key × Value) :=
  Key.all.filterMap fun key => (s.value? key).map (key, ·)

theorem mem_lines {line : Key × Value} : line ∈ s.lines ↔ s.value? line.1 = some line.2 := by
  have hall : ∀ key, key ∈ Key.all := by
    intro key
    cases key <;> decide
  simp only [lines, List.mem_filterMap, Option.map_eq_some_iff]
  constructor
  · rintro ⟨key, -, v, hv, rfl⟩
    exact hv
  · exact fun h => ⟨line.1, hall line.1, line.2, h, rfl⟩

theorem nodup_lines (s : Settings) : (s.lines.map (·.1)).Nodup := by
  have hkeys : s.lines.map (·.1) = Key.all.filter fun key => (s.value? key).isSome := by
    rw [lines, List.map_filterMap, ← List.filterMap_eq_filter]
    refine List.filterMap_congr fun key _ => ?_
    cases h : s.value? key <;> simp [Option.guard, h]
  rw [hkeys]
  exact (by decide : Key.all.Nodup).filter _

theorem wordText?_eq {n : UInt64} (h : (Value.number n).Fits) :
    wordText? n = some (Value.number n).text :=
  if_pos (h n rfl)

theorem valueText?_eq (fits : s.Fits) (key : Key) :
    s.valueText? key = some ((s.value? key).map Value.text) := by
  have hword {n : UInt64} (h : s.value? key = some (.number n)) :
      wordText? n = some (Value.number n).text := wordText?_eq (fits key _ h)
  cases key with
  | preFilterShardSize =>
      cases hsize : s.preFilterShardSize with
      | none => simp [valueText?, value?, hsize]
      | some n =>
          have htext := @hword n (by simp [value?, hsize])
          simp [valueText?, value?, hsize, htext]
  | maxConcurrentTasks => simp [valueText?, value?, hword rfl]
  | maxQueuedTasks => simp [valueText?, value?, hword rfl]
  | alwaysQueryOneShard => rfl
  | probeTimeoutMs =>
      cases htimeout : s.probeTimeoutMs with
      | none => simp [valueText?, value?, htimeout]
      | some n =>
          have htext := @hword n (by simp [value?, htimeout])
          simp [valueText?, value?, htimeout, htext]

/-- The line of a key, with its end. -/
def written (s : Settings) (key : Key) : String :=
  ((s.value? key).map fun v => key.name ++ " = " ++ v.text ++ "\n").getD ""

theorem toToml?_eq (fits : s.Fits) : s.toToml? = some (String.join (Key.all.map s.written)) := by
  rw [toToml?]
  refine Eq.trans (congrArg (fun read => Key.all.mapM read >>= fun lines => pure (String.join lines))
    (funext fun key => ?_ : _ = fun key => pure (s.written key))) ?_
  · rw [valueText?_eq fits, written]
    cases s.value? key <;> simp [toString]
  · rw [List.mapM_pure]
    rfl

theorem document_lines (s : Settings) :
    "[" ++ tableName ++ "]\n" ++ String.join (Key.all.map s.written) = document s.lines ++ "\n" := by
  have hjoin (keys : List Key) : "\n" ++ String.join (keys.map s.written) =
      String.join ((keys.filterMap fun key => (s.value? key).map (key, ·)).map fun line =>
        "\n" ++ line.1.name ++ " = " ++ line.2.text) ++ "\n" := by
    induction keys with
    | nil => simp
    | cons key keys ih =>
        rw [List.map_cons, String.join_cons, written]
        cases h : s.value? key with
        | none => simp [h, ih]
        | some v =>
            rw [List.filterMap_cons_some (by rw [h, Option.map_some]), List.map_cons, String.join_cons,
              String.append_assoc, ← ih]
            simp [String.append_assoc]
  rw [document, lines, show "]\n" = "]" ++ "\n" by decide]
  have hall := hjoin Key.all
  simp only [String.append_assoc] at hall ⊢
  rw [hall]

end writing

section reading

theorem fits_default : Fits {} := by
  intro key v h n hn
  subst hn
  cases key with
  | maxConcurrentTasks =>
      obtain rfl := Value.number.inj (Option.some.inj h)
      decide
  | maxQueuedTasks =>
      obtain rfl := Value.number.inj (Option.some.inj h)
      decide
  | _ => simp [value?] at h

theorem fits_of_readWord {wanted : WantedValue} {item : Toml.Item} {n : UInt64}
    (h : readWord wanted item = .ok n) (fits : item.Fits) : (Value.number n).Fits := by
  rintro _ ⟨⟩
  rw [readWord.eq_def] at h
  split at h
  · split at h
    · rename_i k hk
      obtain rfl := Except.ok.inj h
      cases fits with
      | scalar hscalar =>
          obtain ⟨-, hle⟩ := hscalar k rfl
          calc
            (UInt64.ofNat k.toNat).toNat ≤ k.toNat := by
              rw [UInt64.toNat_ofNat']
              exact Nat.mod_le _ _
            _ ≤ Int64.maxValue.toInt.toNat := Int.toNat_le_toNat hle
    · cases h
  · cases h

theorem exists_value_of_read {item : Toml.Item} (h : s.read key item = .ok t) (fits : item.Fits) :
    ∃ v : Value, v.Fits ∧ ∀ other, t.value? other = if other = key then some v else s.value? other := by
  have hnumber {wanted : WantedValue} {put : UInt64 → Settings} (puts : Puts key s put)
      (h : (readWord wanted item).map put = .ok t) :
      ∃ v : Value, v.Fits ∧
        ∀ other, t.value? other = if other = key then some v else s.value? other := by
    cases hread : readWord wanted item with
    | error mismatch =>
        rw [hread] at h
        cases h
    | ok n =>
        rw [hread] at h
        cases h
        exact ⟨.number n, fits_of_readWord hread fits, puts n⟩
  cases key with
  | alwaysQueryOneShard =>
      rw [Settings.read] at h
      cases hread : readFlag item with
      | error mismatch =>
          rw [hread] at h
          cases h
      | ok b =>
          rw [hread] at h
          cases h
          exact ⟨.flag b, nofun, fun other => by cases other <;> rfl⟩
  | _ => exact hnumber (fun _ other => by cases other <;> rfl) h

theorem Fits.read {item : Toml.Item} (h : s.Fits) (read : s.read key item = .ok t)
    (fits : item.Fits) : t.Fits := by
  obtain ⟨v, hv, ht⟩ := exists_value_of_read read fits
  intro other w hw
  rw [ht] at hw
  split at hw
  · exact Option.some.inj hw ▸ hv
  · exact h other w hw

theorem Fits.foldlM {α : Type} {f : Settings → α → Except Mismatch Settings} {xs : List α}
    (step : ∀ s t x, x ∈ xs → s.Fits → f s x = .ok t → t.Fits) (h : s.Fits)
    (folded : xs.foldlM f s = .ok t) : t.Fits := by
  induction xs generalizing s with
  | nil =>
      cases folded
      exact h
  | cons x xs ih =>
      rw [List.foldlM_cons] at folded
      cases hx : f s x with
      | error mismatch =>
          rw [hx] at folded
          cases folded
      | ok u =>
          rw [hx] at folded
          exact ih (fun s t x mem => step s t x (List.mem_cons_of_mem _ mem))
            (step s u x List.mem_cons_self h hx) folded

theorem fits_of_ofList {items : List Toml.Item} (h : ofList items = .ok s)
    (fits : ∀ item ∈ items, item.Fits) : s.Fits := by
  refine Fits.foldlM (fun s t pair mem hs hread => ?_) fits_default h
  exact hs.read hread (fits _ (List.of_mem_zip mem).2)

theorem fits_of_ofItem {item : Toml.Item} (h : ofItem item = .ok s) (fits : item.Fits) : s.Fits := by
  cases fits with
  | scalar fits =>
      rename_i v
      cases v <;> cases h
      exact fits_default
  | array fits => exact fits_of_ofList h fits
  | table fits =>
      refine Fits.foldlM (fun s t entry mem hs hread => ?_) fits_default h
      simp only at hread
      split at hread
      · exact hs.read hread (fits entry mem)
      · cases hread
        exact hs
  | tables fits =>
      refine fits_of_ofList h (List.forall_mem_map.mpr fun t mem => ?_)
      exact .table (fits t mem)

/-- Settings that come from a document are valid, and a document can hold them. -/
theorem of_ofToml {text : String} (h : ofToml text = .ok s) : s.fault? = none ∧ s.Fits := by
  rw [ofToml] at h
  split at h
  · cases h
  · rename_i root hroot
    split at h
    · cases h
    · rename_i read hread
      split at h
      · cases h
      · rename_i hvalid
        cases h
        refine ⟨hvalid, ?_⟩
        rw [ofDocument] at hread
        split at hread
        · rename_i hfound
          exact fits_of_ofItem hread ((Toml.fits_document? hroot).find? hfound)
        · cases hread
          exact fits_default

end reading

theorem exists_toToml? (valid : s.fault? = none) (fits : s.Fits) :
    ∃ text, s.toToml? = some text ∧ ofToml ("[" ++ tableName ++ "]\n" ++ text) = .ok s := by
  obtain ⟨t, hread, ht⟩ := exists_ofToml_document valid fits s.nodup_lines (fun _ => mem_lines.mp)
    (.inr rfl)
  refine ⟨_, toToml?_eq fits, ?_⟩
  rw [document_lines, hread]
  refine congrArg Except.ok (ext_value? fun key => ?_)
  rw [ht]
  split
  · rfl
  · rename_i habsent
    have hnone : s.value? key = none := by
      by_contra hsome
      obtain ⟨v, hv⟩ := Option.ne_none_iff_exists'.mp hsome
      have hmem : (key, v) ∈ s.lines := mem_lines.mpr hv
      exact habsent (List.mem_map_of_mem hmem)
    -- Only keys without a default value can be absent.
    cases key with
    | preFilterShardSize => exact hnone.symm
    | probeTimeoutMs => exact hnone.symm
    | _ => cases hnone

/-- Of valid settings whose numbers fit in 64 bits with a sign, any lines in any order are read as the
settings that agree with them on the keys of these lines and with the default ones elsewhere, so that
what is written of all of them is read as them. Whatever a document is read as is such settings. -/
theorem documents_read_back :
    (∀ (s : Settings) (lines : List (Key × Value)) (final : String), s.fault? = none → s.Fits →
      (lines.map (·.1)).Nodup → (∀ line ∈ lines, s.value? line.1 = some line.2) →
      (final = "" ∨ final = "\n") →
      ∃ t, ofToml (document lines ++ final) = .ok t ∧ ∀ key, t.value? key =
        if key ∈ lines.map (·.1) then s.value? key else ({} : Settings).value? key) ∧
    (∀ s : Settings, s.fault? = none → s.Fits →
      ∃ text, s.toToml? = some text ∧ ofToml ("[" ++ tableName ++ "]\n" ++ text) = .ok s) ∧
    ∀ (text : String) (s : Settings), ofToml text = .ok s → s.fault? = none ∧ s.Fits ∧
      ∃ written, s.toToml? = some written ∧ ofToml ("[" ++ tableName ++ "]\n" ++ written) = .ok s := by
  refine ⟨fun s lines final valid fits nodup has closed => ?_, fun s valid fits => ?_, ?_⟩
  · exact exists_ofToml_document valid fits nodup has closed
  · exact exists_toToml? valid fits
  · intro text s h
    obtain ⟨hvalid, hfits⟩ := of_ofToml h
    exact ⟨hvalid, hfits, exists_toToml? hvalid hfits⟩

theorem documents_read_back_timeout : ∃ t,
    ofToml "[can_match]\nprobe_timeout_ms = 250\nmax_concurrent_tasks = 4\n" = .ok t ∧
      t.value? .probeTimeoutMs = some (.number 250) ∧ t.value? .maxConcurrentTasks = some (.number 4) ∧
      t.value? .maxQueuedTasks = some (.number 10000) := by
  let s : Settings := { maxConcurrentTasks := 4, maxQueuedTasks := 9, probeTimeoutMs := some 250 }
  have hfits : s.Fits := by
    intro key v h n hn
    subst hn
    cases key <;> simp [s, value?] at h <;> subst h <;> decide
  obtain ⟨t, hread, ht⟩ := documents_read_back.1 s
    [(.probeTimeoutMs, .number 250), (.maxConcurrentTasks, .number 4)] "\n" rfl hfits (by decide)
    (by decide) (.inr rfl)
  exact ⟨t, hread, ht .probeTimeoutMs, ht .maxConcurrentTasks, ht .maxQueuedTasks⟩

end Prefilter.Settings
