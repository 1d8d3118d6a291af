import Prefilter.Proofs.Phase.Run

namespace Prefilter

theorem ShardTarget.sameIdentity_self (t : ShardTarget) : t.sameIdentity t = true := by
  simp [sameIdentity]

theorem hasDuplicates_eq_false_iff {targets : List ShardTarget} :
    hasDuplicates targets = false ↔ targets.Pairwise fun a b => a.sameIdentity b = false := by
  induction targets with
  | nil => simp [hasDuplicates]
  | cons t ts ih =>
      simp only [hasDuplicates, Bool.or_eq_false_iff, List.any_eq_false, Bool.not_eq_true, ih,
        List.pairwise_cons]

theorem nodup_of_startFault?_eq_none {targets : List ShardTarget} {request : SearchRequest}
    (h : startFault? targets request = none) : targets.Nodup := by
  have hduplicates : hasDuplicates targets = false := by
    rw [← Bool.not_eq_true]
    intro hdup
    simp [startFault?, hdup] at h
  refine (hasDuplicates_eq_false_iff.mp hduplicates).imp fun hne heq => ?_
  subst heq
  simp [ShardTarget.sameIdentity_self] at hne

namespace Coordinator

variable {c c' : Coordinator} {d d' : Duty} {m : Move} {k : Nat} {p' : Phase}
  {policy : OrderingPolicy} {moves : List Move} {allowed : Coordinator → Move → Prop}
  {s : Coordinator}

theorem Progress.phases_size (h : Progress c d c' d') : c'.phases.size = c.phases.size := by
  cases h with
  | complete | record | advance => exact Array.size_modify
  | _ => rfl

theorem Progress.exists_phase (h : Progress c d c' d') (hp' : c'.phases[k]? = some p') :
    ∃ p, c.phases[k]? = some p ∧ p'.targets = p.targets ∧ p'.request = p.request := by
  have hk : k < c.phases.size := h.phases_size ▸ (Array.getElem?_eq_some_iff.mp hp').1
  have hp : c.phases[k]? = some c.phases[k] := Array.getElem?_eq_getElem hk
  obtain ⟨p, hp'', htargets, hrequest⟩ := h.extends.phases hp
  obtain rfl := Option.some.inj (hp''.symm.trans hp')
  exact ⟨_, hp, htargets, hrequest⟩

theorem Intake.exists_phase (h : Intake c m c' d) (hp' : c'.phases[k]? = some p') :
    c.phases[k]? = some p' ∨
      ∃ targets request, m = .start targets request ∧ startFault? targets request = none ∧
        p' = .ofTargets targets request := by
  cases h with
  | @start targets request admitted =>
      rcases phases_openPhase hp' with ⟨-, hp'⟩ | ⟨-, hp'⟩
      · exact .inr ⟨targets, request, rfl, admitted, hp'⟩
      · exact .inl hp'
  | _ => exact .inl hp'

/-- Every phase was admitted. -/
def Admitted (c : Coordinator) : Prop :=
  ∀ {k : Nat} {p : Phase}, c.phases[k]? = some p → startFault? p.targets.toList p.request = none

theorem preserved_admitted : Preserved allowed fun c _ => c.Admitted where
  intake _ h _ hi := by
    intro k p hp
    rcases hi.exists_phase hp with hp | ⟨targets, request, -, hadmitted, rfl⟩
    · exact h hp
    · simpa [Phase.ofTargets] using hadmitted
  progress _ h hprogress := by
    intro k p hp
    obtain ⟨q, hq, htargets, hrequest⟩ := hprogress.exists_phase hp
    rw [htargets, hrequest]
    exact h hq
  reorder h _ := h

theorem Reachable.admitted (h : Reachable policy moves c) : c.Admitted := by
  obtain ⟨-, -, hadmitted⟩ := preserved_admitted.run h (sound_initial policy) (by simp [Admitted])
  exact hadmitted

theorem preserved_policy : Preserved allowed fun c _ => c.policy = policy where
  intake _ h _ hi := by cases hi <;> exact h
  progress _ h hp := by cases hp <;> exact h
  reorder h _ := h

theorem Reachable.policy_eq (h : Reachable policy moves c) : c.policy = policy := by
  obtain ⟨-, -, hpolicy⟩ := preserved_policy.run h (sound_initial policy) rfl
  exact hpolicy

end Coordinator
end Prefilter
