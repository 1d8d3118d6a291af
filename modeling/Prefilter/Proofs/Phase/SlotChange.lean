import Prefilter.Proofs.Phase.Induction

namespace Prefilter.Coordinator

variable {c c' : Coordinator} {d d' : Duty} {m : Move} {k i : Nat}

theorem slot?_eq_some {s : Slot} :
    c.slot? k i = some s ↔ ∃ p, c.phases[k]? = some p ∧ p.slots[i]? = some s :=
  Option.bind_eq_some_iff

theorem isCurrent_iff_slot? {a : Attempt} :
    c.isCurrent a = true ↔ ∃ s, c.slot? a.phase a.slot = some s ∧ s.cursor = .copy a.copy := by
  simp [isCurrent]

theorem slot?_updatePhase_modify {j l : Nat} {f : Phase → Phase} {g : Slot → Slot}
    (hf : ∀ p, (f p).slots = p.slots.modify l g) :
    (c.updatePhase j f).slot? k i =
      if j = k ∧ l = i then (c.slot? k i).map g else c.slot? k i := by
  simp only [slot?, updatePhase, Array.getElem?_modify]
  by_cases hj : j = k
  · subst hj
    cases hp : c.phases[j]? with
    | none => simp
    | some p =>
        by_cases hl : l = i
        · simp [hf, hl, Array.getElem?_modify]
        · simp [hf, hl, Array.getElem?_modify]
  · simp [hj]

theorem slot?_record {j l : Nat} {outcome : Outcome} :
    (c.updatePhase j (·.record l outcome)).slot? k i =
      if j = k ∧ l = i then
        (c.slot? k i).map fun s => { cursor := .done, outcome := s.outcome.or (some outcome) }
      else c.slot? k i :=
  slot?_updatePhase_modify fun _ => rfl

theorem slot?_advance {j l copy : Nat} :
    (c.updatePhase j (·.advance l copy)).slot? k i =
      if j = k ∧ l = i then (c.slot? k i).map fun s => { s with cursor := .copy (copy + 1) }
      else c.slot? k i :=
  slot?_updatePhase_modify fun _ => rfl

theorem slot?_conclude {j : Nat} {result : OrderedShards} :
    (c.updatePhase j (·.conclude result)).slot? k i = c.slot? k i := by
  simp only [slot?, updatePhase, Array.getElem?_modify]
  by_cases hj : j = k
  · subst hj
    cases hp : c.phases[j]? <;> simp [Phase.conclude]
  · simp [hj]

theorem slot?_openPhase {targets : List ShardTarget} {request : SearchRequest} :
    (c.openPhase targets request).slot? k i =
      if k = c.phases.size then (if i < targets.length then some {} else none) else c.slot? k i := by
  simp only [slot?, openPhase, Array.getElem?_push]
  by_cases hk : k = c.phases.size
  · simp [hk, Phase.ofTargets, Array.getElem?_replicate]
  · simp [hk]

/-- What an act does to a slot. -/
inductive SlotChange (c : Coordinator) (d : Duty) (c' : Coordinator) (d' : Duty) (k i : Nat) : Prop where
  | same (eq : c'.slot? k i = c.slot? k i)
  | recorded {a : Attempt} {outcome : Outcome} {caller : Caller} (duty : d = .finish a outcome caller)
      (phase : a.phase = k) (slot : a.slot = i)
      (before : c.slot? k i = some ⟨.copy a.copy, none⟩)
      (after : c'.slot? k i = some ⟨.done, some outcome⟩)
  | advanced {a : Attempt} {error : ProbeError} (duty : d = .fail a error)
      (phase : a.phase = k) (slot : a.slot = i)
      (before : c.slot? k i = some ⟨.copy a.copy, none⟩)
      (after : c'.slot? k i = some ⟨.copy (a.copy + 1), none⟩) (next : d' = .dispatch a.next)

theorem Sound.slot?_eq (sound : c.Sound d) {s : Slot} {copy : Nat} (hs : c.slot? k i = some s)
    (hc : s.cursor = .copy copy) : s = ⟨.copy copy, none⟩ := by
  obtain ⟨p, hp, hps⟩ := slot?_eq_some.mp hs
  have hnone := (sound.books.balanced hp).outcome_eq_none hps hc
  cases s
  simp_all

theorem Sound.exists_slot? (sound : c.Sound d) {target : ShardTarget}
    (h : c.target? k i = some target) : ∃ s, c.slot? k i = some s := by
  obtain ⟨p, hp, htarget⟩ := exists_phase_of_target? h
  have hlt : i < p.slots.size :=
    (sound.books.balanced hp).slots_size ▸ (Array.getElem?_eq_some_iff.mp htarget).1
  exact ⟨p.slots[i], slot?_eq_some.mpr ⟨p, hp, Array.getElem?_eq_getElem hlt⟩⟩

theorem Sound.exists_target? (sound : c.Sound d) {s : Slot} (hs : c.slot? k i = some s) :
    ∃ target, c.target? k i = some target := by
  obtain ⟨p, hp, hps⟩ := slot?_eq_some.mp hs
  have hlt : i < p.targets.size :=
    (sound.books.balanced hp).slots_size ▸ (Array.getElem?_eq_some_iff.mp hps).1
  exact ⟨p.targets[i], Option.bind_eq_some_iff.mpr ⟨p, hp, Array.getElem?_eq_getElem hlt⟩⟩

theorem Progress.slotChange (h : Progress c d c' d') (sound : c.Sound d) (k i : Nat) :
    SlotChange c d c' d' k i := by
  cases h with
  | complete => exact .same slot?_conclude
  | @record a outcome caller p s found slot current =>
      by_cases hat : a.phase = k ∧ a.slot = i
      · obtain ⟨rfl, rfl⟩ := hat
        have hs : c.slot? a.phase a.slot = some s := slot?_eq_some.mpr ⟨p, found, slot⟩
        obtain rfl := sound.slot?_eq hs current
        exact .recorded rfl rfl rfl hs (by simp [slot?_record, hs])
      · exact .same (slot?_record.trans (if_neg hat))
  | @advance a error target node p s found phase slot current =>
      by_cases hat : a.phase = k ∧ a.slot = i
      · obtain ⟨rfl, rfl⟩ := hat
        have hs : c.slot? a.phase a.slot = some s := slot?_eq_some.mpr ⟨p, phase, slot⟩
        obtain rfl := sound.slot?_eq hs current
        have hlog : (c.log (.attemptFailed a target node error)).slot? a.phase a.slot =
            some ⟨.copy a.copy, none⟩ := hs
        exact .advanced rfl rfl rfl hs (slot?_advance.trans (by simp [hlog])) rfl
      · exact .same (slot?_advance.trans (if_neg hat))
  | _ => exact .same rfl

/-- A move that is taken up leaves the slots that are there as they are; a new phase has fresh ones. -/
theorem Intake.slot?_cases (h : Intake c m c' d) (k i : Nat) :
    c'.slot? k i = c.slot? k i ∨
      ∃ targets request, m = .start targets request ∧ startFault? targets request = none ∧
        k = c.phases.size ∧ i < targets.length ∧ c'.slot? k i = some {} ∧
        d = .submit k 0 := by
  cases h with
  | @start targets request admitted =>
      have hopen : ((c.logAll [.startSpan targets.length request.sort.isSome,
          .phaseSpan c.phases.size targets.length (request.sort.map (·.field)),
          .phaseStarted c.phases.size]).openPhase targets request).slot? k i =
            if k = c.phases.size then (if i < targets.length then some {} else none)
            else c.slot? k i := slot?_openPhase
      by_cases hk : k = c.phases.size
      · by_cases hi : i < targets.length
        · have hne : targets.isEmpty = false := by
            cases targets with
            | nil => simp at hi
            | cons => rfl
          exact .inr ⟨targets, request, rfl, admitted, hk, hi, by rw [hopen, if_pos hk, if_pos hi],
            by simp [hne, hk]⟩
        · have hnone : c.slot? k i = none := by simp [slot?, hk]
          exact .inl (by rw [hopen, if_pos hk, if_neg hi, hnone])
      · exact .inl (by rw [hopen, if_neg hk])
  | _ => exact .inl rfl

theorem Intake.slot?_of_some {s : Slot} (h : Intake c m c' d) (hs : c.slot? k i = some s) :
    c'.slot? k i = some s := by
  rcases h.slot?_cases k i with heq | ⟨_, _, -, -, rfl, -⟩
  · rw [heq, hs]
  · simp [slot?] at hs

theorem Progress.slot?_done {o : Option Outcome} (h : Progress c d c' d') (sound : c.Sound d)
    (hs : c.slot? k i = some ⟨.done, o⟩) : c'.slot? k i = some ⟨.done, o⟩ := by
  cases h.slotChange sound k i with
  | same eq => rw [eq, hs]
  | recorded duty phase slot before => simp [hs] at before
  | advanced duty phase slot before => simp [hs] at before

end Prefilter.Coordinator
