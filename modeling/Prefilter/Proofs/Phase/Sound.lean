import Prefilter.Proofs.Phase.Grounded

/-!
The books of a coordinator: those of every phase are in order, a phase is complete as soon as nothing
is outstanding, and its result has then been handed over once. They stay in order whatever the
collaborators do.
-/

namespace Prefilter

namespace Event

/-- What the next phase of a phase is handed in an event. -/
def delivery? (phase : Nat) : Event → Option OrderedShards
  | .delivered other result => if other = phase then some result else none
  | _ => none

def isBreach : Event → Bool
  | .breach .. => true
  | _ => false

/-- Whether an event is neither a delivery nor a breach. -/
def isPlain : Event → Bool
  | .delivered .. | .breach .. => false
  | _ => true

theorem delivery?_eq_none {e : Event} (h : e.isPlain = true) (phase : Nat) :
    e.delivery? phase = none := by
  cases e <;> simp_all [isPlain, delivery?]

theorem isBreach_eq_false {e : Event} (h : e.isPlain = true) : e.isBreach = false := by
  cases e <;> simp_all [isPlain, isBreach]

end Event

/-- The phase that is about to be completed. -/
def Duty.completes : Duty → Option Nat
  | .complete phase _ => some phase
  | _ => none

theorem Duty.completes_rest (call : Option Frame) : (Duty.rest call).completes = none := rfl

theorem Caller.completes_duty (phase : Nat) (caller : Caller) :
    (caller.duty phase).completes = none := by
  cases caller <;> rfl

namespace Coordinator

variable {c c' : Coordinator} {d d' : Duty} {m : Move} {k : Nat} {p : Phase}

/-- What the next phase of a phase has been handed so far. -/
def deliveries (c : Coordinator) (phase : Nat) : List OrderedShards :=
  c.trace.toList.filterMap (Event.delivery? phase)

theorem phases_updatePhase {f : Phase → Phase} {j : Nat} {q : Phase} (found : c.phases[k]? = some p)
    (h : (c.updatePhase k f).phases[j]? = some q) :
    (j = k ∧ q = f p) ∨ (j ≠ k ∧ c.phases[j]? = some q) := by
  rw [updatePhase, Array.getElem?_modify] at h
  split at h
  · rename_i hj
    subst hj
    simp only [found, Option.map_some, Option.some.injEq] at h
    exact .inl ⟨rfl, h.symm⟩
  · rename_i hj
    exact .inr ⟨Ne.symm hj, h⟩

theorem phases_openPhase {targets : List ShardTarget} {request : SearchRequest} {j : Nat} {q : Phase}
    (h : (c.openPhase targets request).phases[j]? = some q) :
    (j = c.phases.size ∧ q = .ofTargets targets request) ∨
      (j ≠ c.phases.size ∧ c.phases[j]? = some q) := by
  rw [openPhase, Array.getElem?_push] at h
  split at h
  · rename_i hj
    exact .inl ⟨hj, (Option.some.inj h).symm⟩
  · rename_i hj
    exact .inr ⟨hj, h⟩

theorem deliveries_eq_append {es : List Event} (h : c'.trace.toList = c.trace.toList ++ es) (k : Nat) :
    c'.deliveries k = c.deliveries k ++ es.filterMap (Event.delivery? k) := by
  simp [deliveries, h]

/-- The books are in order, a completion that is due apart. -/
structure Books (c : Coordinator) (d : Duty) : Prop where
  balanced : ∀ {k : Nat} {p : Phase}, c.phases[k]? = some p → p.Balanced
  completed_iff : ∀ {k : Nat} {p : Phase}, c.phases[k]? = some p →
    (p.completed = true ↔ p.outstanding = 0 ∧ d.completes ≠ some k)
  due : ∀ {k : Nat} {p : Phase}, d.completes = some k → c.phases[k]? = some p → p.outstanding = 0
  result_eq : ∀ {k : Nat} {p : Phase}, c.phases[k]? = some p →
    p.result = if p.completed then some (c.resultOf p) else none
  deliveries_eq : ∀ k, c.deliveries k = (c.phases[k]?.bind (·.result)).toList
  no_breach : ∀ {e : Event}, e ∈ c.trace.toList → e.isBreach = false

namespace Books

theorem incomplete (h : c.Books d) (found : c.phases[k]? = some p) (hpos : 0 < p.outstanding) :
    p.completed = false ∧ p.result = none := by
  have hcompleted : p.completed = false := by
    rw [← Bool.not_eq_true, h.completed_iff found]
    omega
  exact ⟨hcompleted, by simp [h.result_eq found, hcompleted]⟩

theorem keep (h : c.Books d) (phases : c'.phases = c.phases) (policy : c'.policy = c.policy)
    {es : List Event} (trace : c'.trace.toList = c.trace.toList ++ es)
    (plain : ∀ e ∈ es, e.isPlain = true) (hd : d'.completes = d.completes) : c'.Books d' where
  balanced hp := h.balanced (phases ▸ hp)
  completed_iff hp := by
    rw [h.completed_iff (phases ▸ hp), hd]
  due hk hp := h.due (hd ▸ hk) (phases ▸ hp)
  result_eq hp := by
    rw [h.result_eq (phases ▸ hp), resultOf, resultOf, policy]
  deliveries_eq k := by
    have hnone : es.filterMap (Event.delivery? k) = [] :=
      List.filterMap_eq_nil_iff.mpr fun e he => Event.delivery?_eq_none (plain e he) k
    rw [deliveries_eq_append trace, hnone, List.append_nil, h.deliveries_eq, phases]
  no_breach he := by
    rcases List.mem_append.mp (trace ▸ he) with he | he
    · exact h.no_breach he
    · exact Event.isBreach_eq_false (plain _ he)

theorem transfer (h : c.Books d) (phases : c'.phases = c.phases) (policy : c'.policy = c.policy)
    (trace : c'.trace = c.trace) (hd : d'.completes = d.completes) : c'.Books d' :=
  h.keep phases policy (by rw [trace, List.append_nil]) (List.forall_mem_nil _) hd

theorem emit (h : c.Books d) {e : Event} (plain : e.isPlain = true) : (c.emit e).Books d :=
  h.keep rfl rfl (Array.toList_push ..) (by simpa using plain) rfl

theorem log (h : c.Books d) (n : Notice) : (c.log n).Books d := h.emit rfl

theorem logAll (h : c.Books d) (ns : List Notice) : (c.logAll ns).Books d :=
  h.keep rfl rfl (Array.toList_append ..) (by simp [Event.isPlain]) rfl

/-- A phase with an open slot changes its slots and its counter, but stays incomplete unless its
completion is due. -/
theorem update (h : c.Books d) (found : c.phases[k]? = some p) (hpos : 0 < p.outstanding)
    {f : Phase → Phase} (balanced : (f p).Balanced) (completed : (f p).completed = p.completed)
    (result : (f p).result = p.result) (hd : d.completes = none)
    (hd' : ∀ j, d'.completes = some j ↔ j = k ∧ (f p).outstanding = 0) :
    (c.updatePhase k f).Books d' where
  balanced hq := by
    rcases phases_updatePhase found hq with ⟨rfl, rfl⟩ | ⟨-, hq⟩
    · exact balanced
    · exact h.balanced hq
  completed_iff hq := by
    rcases phases_updatePhase found hq with ⟨rfl, rfl⟩ | ⟨hne, hq⟩
    · simp [completed, (h.incomplete found hpos).1, hd']
    · have hother : d'.completes ≠ some _ := fun hc => hne ((hd' _).mp hc).1
      simp [h.completed_iff hq, hd, hother]
  due hj hq := by
    obtain ⟨rfl, hzero⟩ := (hd' _).mp hj
    rcases phases_updatePhase found hq with ⟨-, rfl⟩ | ⟨hne, -⟩
    · exact hzero
    · exact absurd rfl hne
  result_eq hq := by
    rcases phases_updatePhase found hq with ⟨rfl, rfl⟩ | ⟨-, hq⟩
    · simp [completed, result, h.incomplete found hpos]
    · exact h.result_eq hq
  deliveries_eq j := by
    have hres : (c.updatePhase k f).phases[j]?.bind (·.result) = c.phases[j]?.bind (·.result) := by
      rw [updatePhase, Array.getElem?_modify]
      split
      · rename_i hj
        subst hj
        simp [found, result]
      · rfl
    rw [hres]
    exact h.deliveries_eq j
  no_breach he := h.no_breach he

theorem complete (h : c.Books d) (hd : d.completes = some k) (found : c.phases[k]? = some p)
    (hd' : d'.completes = none) :
    ((c.updatePhase k (·.conclude (c.resultOf p))).emit (.delivered k (c.resultOf p))).Books d' where
  balanced hq := by
    rcases phases_updatePhase found hq with ⟨rfl, rfl⟩ | ⟨-, hq⟩
    · exact (h.balanced found).conclude _
    · exact h.balanced hq
  completed_iff hq := by
    rcases phases_updatePhase found hq with ⟨rfl, rfl⟩ | ⟨hne, hq⟩
    · simp [Phase.conclude, h.due hd found, hd']
    · have hother : d.completes ≠ some _ := fun hc => hne (Option.some.inj (hc.symm.trans hd))
      simp [h.completed_iff hq, hd', hother]
  due hj := by simp [hd'] at hj
  result_eq hq := by
    rcases phases_updatePhase found hq with ⟨rfl, rfl⟩ | ⟨-, hq⟩
    · rfl
    · exact h.result_eq hq
  deliveries_eq j := by
    have hincomplete : p.completed = false := by
      rw [← Bool.not_eq_true, h.completed_iff found]
      simp [hd]
    have happend : ((c.updatePhase k (·.conclude (c.resultOf p))).emit
        (.delivered k (c.resultOf p))).trace.toList =
          c.trace.toList ++ [.delivered k (c.resultOf p)] := Array.toList_push ..
    rw [deliveries_eq_append happend, h.deliveries_eq]
    simp only [Coordinator.emit, updatePhase, Array.getElem?_modify]
    split
    · rename_i hj
      subst hj
      simp [found, h.result_eq found, hincomplete, Event.delivery?, Phase.conclude]
    · rename_i hj
      simp [Event.delivery?, hj]
  no_breach he := by
    rcases List.mem_append.mp (Array.toList_push .. ▸ he) with he | he
    · exact h.no_breach he
    · obtain rfl := List.mem_singleton.mp he
      rfl

theorem openPhase (h : c.Books d) (targets : List ShardTarget) (request : SearchRequest)
    (hd : d.completes = none) (hd' : ∀ j, d'.completes = some j ↔ j = c.phases.size ∧ targets = []) :
    (c.openPhase targets request).Books d' where
  balanced hq := by
    rcases phases_openPhase hq with ⟨rfl, rfl⟩ | ⟨-, hq⟩
    · exact Phase.balanced_ofTargets targets request
    · exact h.balanced hq
  completed_iff hq := by
    rcases phases_openPhase hq with ⟨rfl, rfl⟩ | ⟨hne, hq⟩
    · simp [Phase.ofTargets, hd']
    · have hother : d'.completes ≠ some _ := fun hc => hne ((hd' _).mp hc).1
      simp [h.completed_iff hq, hd, hother]
  due hj hq := by
    obtain ⟨rfl, rfl⟩ := (hd' _).mp hj
    rcases phases_openPhase hq with ⟨-, rfl⟩ | ⟨hne, -⟩
    · rfl
    · exact absurd rfl hne
  result_eq hq := by
    rcases phases_openPhase hq with ⟨rfl, rfl⟩ | ⟨-, hq⟩
    · rfl
    · exact h.result_eq hq
  deliveries_eq j := by
    have hres : (c.openPhase targets request).phases[j]?.bind (·.result) =
        c.phases[j]?.bind (·.result) := by
      rw [Coordinator.openPhase, Array.getElem?_push]
      split
      · rename_i hj
        simp [hj, Phase.ofTargets]
      · rfl
    rw [hres]
    exact h.deliveries_eq j
  no_breach he := h.no_breach he

theorem exists_of_mem_deliveries (h : c.Books d) {r : OrderedShards} (hr : r ∈ c.deliveries k) :
    ∃ p, c.phases[k]? = some p ∧ p.outstanding = 0 ∧ r = c.resultOf p := by
  rw [h.deliveries_eq, Option.mem_toList, Option.bind_eq_some_iff] at hr
  obtain ⟨p, hp, hresult⟩ := hr
  rw [h.result_eq hp] at hresult
  split at hresult
  · rename_i hcompleted
    exact ⟨p, hp, ((h.completed_iff hp).mp hcompleted).1, (Option.some.inj hresult).symm⟩
  · cases hresult

end Books

end Coordinator
end Prefilter
