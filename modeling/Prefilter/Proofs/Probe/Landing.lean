import Prefilter.Probe.Carrier

namespace Prefilter.Carrier

variable {α : Type} {c : Carrier α} {time : Nat}

theorem earliest?_of_ne_nil {flights : List (Flight α)} (h : flights ≠ []) :
    ∃ f, earliest? flights = some f ∧ f ∈ flights ∧ ∀ g ∈ flights, f.due ≤ g.due := by
  induction flights with
  | nil => exact absurd rfl h
  | cons f rest ih =>
      by_cases hrest : rest = []
      · subst hrest
        exact ⟨f, rfl, by simp, by simp⟩
      · obtain ⟨g, hg, hmem, hmin⟩ := ih hrest
        by_cases hlt : g.due < f.due
        · refine ⟨g, by simp [earliest?, hg, hlt], List.mem_cons_of_mem _ hmem, ?_⟩
          intro k hk
          rcases List.mem_cons.mp hk with rfl | hk
          · exact Nat.le_of_lt hlt
          · exact hmin k hk
        · refine ⟨f, by simp [earliest?, hg, hlt], List.mem_cons_self, ?_⟩
          intro k hk
          rcases List.mem_cons.mp hk with rfl | hk
          · exact Nat.le_refl _
          · exact Nat.le_trans (Nat.le_of_not_lt hlt) (hmin k hk)

theorem land?_of_due (h : c.flights ≠ []) (due : ∀ f ∈ c.flights, f.due ≤ time) :
    ∃ f ∈ c.flights, (∀ g ∈ c.flights, f.due ≤ g.due) ∧
      c.land? time =
        some (f, { c with now := max c.now f.due, flights := c.flights.filter (·.id != f.id) }) := by
  obtain ⟨f, hf, hmem, hmin⟩ := earliest?_of_ne_nil h
  exact ⟨f, hmem, hmin, by simp [land?, hf, due f hmem]⟩

theorem land?_eq_some_iff {f : Flight α} {d : Carrier α} : c.land? time = some (f, d) ↔
    earliest? c.flights = some f ∧ f.due ≤ time ∧
      { c with now := max c.now f.due, flights := c.flights.filter (·.id != f.id) } = d := by
  unfold land?
  rcases earliest? c.flights with _ | g
  · simp
  · by_cases hdue : g.due ≤ time
    · simp only [hdue, if_true, Option.some.injEq, Prod.mk.injEq]
      constructor <;> rintro ⟨rfl, h⟩
      · exact ⟨rfl, hdue, h⟩
      · exact ⟨rfl, h.2⟩
    · simp only [hdue, if_false, reduceCtorEq, Option.some.injEq, false_iff]
      rintro ⟨rfl, h, -⟩
      exact hdue h

theorem exists_of_land?_eq_some {f : Flight α} {c' : Carrier α} (h : c.land? time = some (f, c')) :
    ∃ now, c' = { c with now, flights := c.flights.filter (·.id != f.id) } :=
  ⟨_, (land?_eq_some_iff.mp h).2.2.symm⟩

theorem land?_of_flights_eq_nil (h : c.flights = []) : c.land? time = none := by
  simp [land?, h, earliest?]

theorem lt_due_of_land?_eq_none (h : c.land? time = none) : ∀ f ∈ c.flights, time < f.due := by
  intro f hf
  obtain ⟨g, hg, -, hmin⟩ := earliest?_of_ne_nil (List.ne_nil_of_mem hf)
  have hlate : ¬ g.due ≤ time := by simpa [land?, hg] using h
  exact Nat.lt_of_lt_of_le (Nat.lt_of_not_le hlate) (hmin f hf)

theorem earliest?_eq_some {flights : List (Flight α)} {f : Flight α} (h : earliest? flights = some f) :
    f ∈ flights ∧ ∀ g ∈ flights, f.due ≤ g.due := by
  have hne : flights ≠ [] := by
    rintro rfl
    cases h
  obtain ⟨g, hg, hmem, hmin⟩ := earliest?_of_ne_nil hne
  obtain rfl := Option.some.inj (hg.symm.trans h)
  exact ⟨hmem, hmin⟩

/-! ### All that is due by a time -/

variable {flights : List (Flight α)} {f : Flight α} {later m n : Nat}

theorem filter_id_eq (distinct : flights.Pairwise (·.id ≠ ·.id)) (hf : f ∈ flights) :
    flights.filter (·.id == f.id) = [f] := by
  induction distinct with
  | nil => exact absurd hf List.not_mem_nil
  | @cons g rest hfresh _ ih =>
      rcases List.mem_cons.mp hf with rfl | hf
      · have hnone : rest.filter (·.id == f.id) = [] := by
          simpa [List.filter_eq_nil_iff] using fun k hk => (hfresh k hk).symm
        simp [hnone]
      · simp [hfresh f hf, ih hf]

theorem cons_filter_perm (distinct : flights.Pairwise (·.id ≠ ·.id)) (hf : f ∈ flights) :
    (f :: flights.filter (·.id != f.id)).Perm flights := by
  have hparts := List.filter_append_perm (fun g : Flight α => g.id == f.id) flights
  rwa [filter_id_eq distinct hf] at hparts

/-- Flights under way have numbers of their own, and none is due earlier than now. Without a runtime
there are none. -/
structure Orderly (c : Carrier α) : Prop where
  distinct : c.flights.Pairwise (·.id ≠ ·.id)
  timely : ∀ f ∈ c.flights, c.now ≤ f.due
  grounded : c.alive = false → c.flights = []

theorem length_flights_land? {d : Carrier α} (landed : c.land? time = some (f, d)) :
    d.flights.length < c.flights.length := by
  obtain ⟨hfirst, -, rfl⟩ := land?_eq_some_iff.mp landed
  exact List.length_filter_lt_length_iff_exists.mpr ⟨f, (earliest?_eq_some hfirst).1, by simp⟩

/-- What lands by `time`, each flight with the reading of the clock as it lands. -/
def landings (c : Carrier α) (time : Nat) : Nat → List (Nat × Flight α)
  | 0 => []
  | count + 1 =>
    match c.land? time with
    | none => []
    | some (f, after) => (after.now, f) :: after.landings time count

theorem Orderly.land? (h : c.Orderly) {d : Carrier α} (landed : c.land? time = some (f, d)) :
    d.Orderly ∧ d.now = f.due := by
  obtain ⟨hfirst, -, rfl⟩ := land?_eq_some_iff.mp landed
  obtain ⟨hf, hmin⟩ := earliest?_eq_some hfirst
  have hnow : max c.now f.due = f.due := Nat.max_eq_right (h.timely f hf)
  refine ⟨⟨h.distinct.sublist List.filter_sublist, ?_, ?_⟩, hnow⟩
  · intro g hg
    rw [hnow]
    exact hmin g (List.mem_filter.mp hg).1
  · intro halive
    simp [h.grounded halive]

/-- All that is due lands when it is due, and the rest stays under way. -/
theorem Orderly.landMany (h : c.Orderly) (fuel : c.flights.length ≤ n) :
    (∃ now, (c.landMany time n).1 = { c with now, flights := c.flights.filter (time < ·.due) }) ∧
      (c.landMany time n).2.Perm (c.flights.filter (·.due ≤ time)) ∧
      c.landings time n = (c.landMany time n).2.map fun f => (f.due, f) := by
  induction n generalizing c with
  | zero =>
      have hnil : c.flights = [] := List.length_eq_zero_iff.mp (Nat.le_zero.mp fuel)
      refine ⟨⟨c.now, ?_⟩, ?_, rfl⟩
      · rw [Carrier.landMany, hnil, List.filter_nil, ← hnil]
      · simp [Carrier.landMany, hnil]
  | succ n ih =>
      rcases hland : c.land? time with _ | ⟨f, d⟩
      · have hlate := lt_due_of_land?_eq_none hland
        have hall : c.flights.filter (time < ·.due) = c.flights := by
          simpa [List.filter_eq_self] using hlate
        have hnone : c.flights.filter (·.due ≤ time) = [] := by
          simpa [List.filter_eq_nil_iff] using hlate
        simp only [Carrier.landMany, landings, hland, hall, hnone]
        exact ⟨⟨c.now, rfl⟩, .refl _, rfl⟩
      · obtain ⟨hd, hnow⟩ := h.land? hland
        have hlength := length_flights_land? hland
        obtain ⟨⟨now, hrest⟩, hperm, hclock⟩ := ih hd (by omega)
        obtain ⟨hfirst, hdue, rfl⟩ := land?_eq_some_iff.mp hland
        have hf := (earliest?_eq_some hfirst).1
        simp only [Carrier.landMany, landings, hland]
        refine ⟨⟨now, ?_⟩, ?_, ?_⟩
        · rw [hrest, List.filter_filter]
          congr 1
          apply List.filter_congr
          intro g hg
          by_cases hid : g.id = f.id
          · obtain rfl : g = f := by
              have hsame : g ∈ c.flights.filter (·.id == f.id) := by simp [hg, hid]
              simpa [filter_id_eq h.distinct hf] using hsame
            simpa using hdue
          · simp [hid]
        · have hparts := (cons_filter_perm h.distinct hf).filter (·.due ≤ time)
          rw [List.filter_cons_of_pos (by simpa using hdue)] at hparts
          exact (hperm.cons f).trans hparts
        · rw [hclock, List.map_cons]
          exact congrArg (fun clock => (clock, f) :: _) hnow

theorem landMany_congr {d : Carrier α} (same : c.flights = d.flights) (hm : c.flights.length ≤ m)
    (hn : c.flights.length ≤ n) : (c.landMany time m).2 = (d.landMany time n).2 := by
  induction m generalizing c d n with
  | zero =>
      have hnil : c.flights = [] := List.length_eq_zero_iff.mp (Nat.le_zero.mp hm)
      have hland : d.land? time = none := land?_of_flights_eq_nil (same ▸ hnil)
      cases n <;> simp [landMany, hland]
  | succ m ih =>
      rcases hland : c.land? time with _ | ⟨f, c'⟩
      · have hnone : d.land? time = none := by
          simp only [land?, same] at hland ⊢
          split at hland <;> simp_all
        cases n <;> simp [landMany, hland, hnone]
      · have hlength := length_flights_land? hland
        obtain ⟨hfirst, hdue, rfl⟩ := land?_eq_some_iff.mp hland
        have hsome := land?_eq_some_iff.mpr ⟨same ▸ hfirst, hdue, rfl⟩
        cases n with
        | zero => omega
        | succ n =>
            simp only [landMany, hland, hsome]
            exact congrArg (f :: ·) (ih (congrArg (List.filter _) same) (by omega) (by omega))

theorem landMany_append {d : Carrier α} (le : time ≤ later) (hm : c.flights.length ≤ m)
    (hn : c.flights.length ≤ n) (rest : d.flights = (c.landMany time n).1.flights) :
    (c.landMany later m).2 = (c.landMany time n).2 ++ (d.landMany later d.flights.length).2 := by
  induction n generalizing c m with
  | zero => exact landMany_congr rest.symm hm (by simp [rest, landMany])
  | succ n ih =>
      rcases hland : c.land? time with _ | ⟨f, c'⟩
      · simp only [landMany, hland] at rest ⊢
        exact landMany_congr rest.symm hm (Nat.le_of_eq (by rw [rest]))
      · have hlength := length_flights_land? hland
        obtain ⟨hfirst, hdue, hc'⟩ := land?_eq_some_iff.mp hland
        have hlater : c.land? later = some (f, c') :=
          land?_eq_some_iff.mpr ⟨hfirst, Nat.le_trans hdue le, hc'⟩
        cases m with
        | zero => omega
        | succ m =>
            simp only [landMany, hland] at rest
            simp only [landMany, hland, hlater, List.cons_append]
            rw [ih (by omega) (by omega) rest]

theorem Orderly.advance_eq (h : c.Orderly) (ms : Nat) : (c.advance ms).1 =
    { c with now := c.now + ms, flights := c.flights.filter (c.now + ms < ·.due) } := by
  obtain ⟨⟨now, hrest⟩, -⟩ := @Orderly.landMany _ c (c.now + ms) _ h (Nat.le_refl _)
  simp only [advance, hrest]

theorem Orderly.advance (h : c.Orderly) (ms : Nat) : (c.advance ms).1.Orderly := by
  rw [h.advance_eq]
  refine ⟨h.distinct.sublist List.filter_sublist, fun f hf => ?_, fun halive => ?_⟩
  · exact Nat.le_of_lt (of_decide_eq_true (List.mem_filter.mp hf).2)
  · simp [h.grounded halive]

theorem Orderly.advance_add (h : c.Orderly) (a b : Nat) :
    c.advance (a + b) =
      (((c.advance a).1.advance b).1, (c.advance a).2 ++ ((c.advance a).1.advance b).2) := by
  apply Prod.ext
  · rw [(h.advance a).advance_eq, h.advance_eq, h.advance_eq, List.filter_filter, Nat.add_assoc]
    congr 1
    apply List.filter_congr
    intro f _
    grind
  · have hnow : (c.advance a).1.now + b = c.now + (a + b) := Nat.add_assoc ..
    rw [Carrier.advance, Carrier.advance, hnow]
    exact landMany_append (by omega) (Nat.le_refl _) (Nat.le_refl _) rfl

end Prefilter.Carrier
