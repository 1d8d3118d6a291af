import Prefilter.Proofs.Phase.Run

namespace Prefilter

/-- Whether the next phase of a phase is about to be called, or has just been. -/
def Duty.delivers (phase : Nat) : Duty → Prop
  | .complete other _ | .rest (some (.delivering other _)) => other = phase
  | _ => False

theorem Caller.delivers_duty (phase other : Nat) (caller : Caller) :
    (caller.duty phase).delivers other ↔ False := by
  cases caller <;> exact Iff.rfl

theorem Duty.delivers_finish (a : Attempt) (outcome : Outcome) (caller : Caller) (phase : Nat) :
    (Duty.finish a outcome caller).delivers phase ↔ False := Iff.rfl

/-- Whether a move ends in a call of the next phase of a phase. -/
def Turn.Delivers (t : Turn) (phase : Nat) : Prop :=
  ∃ caller, t.call = some (.delivering phase caller)

theorem Turn.delivers_iff {t : Turn} {phase : Nat} :
    t.Delivers phase ↔ (Duty.rest t.call).delivers phase := by
  constructor
  · rintro ⟨caller, h⟩
    rw [h]
    rfl
  · intro h
    rcases hcall : t.call with _ | ⟨_ | _ | _ | _⟩
    case some.delivering other caller =>
      rw [hcall] at h
      obtain rfl : other = phase := h
      exact ⟨caller, hcall⟩
    all_goals
      rw [hcall] at h
      exact h.elim

namespace Coordinator

variable {c c' before : Coordinator} {d d' : Duty} {m : Move} {k : Nat} {p : Phase}
  {call : Option Frame} {policy : OrderingPolicy} {moves : List Move}

/-- The phase is there, and nothing of it is outstanding. -/
def IsFinished (c : Coordinator) (phase : Nat) : Prop :=
  ∃ p, c.phases[phase]? = some p ∧ p.outstanding = 0

theorem outstanding_updatePhase {j : Nat} {f : Phase → Phase}
    (hf : ∀ p, (f p).outstanding ≤ p.outstanding) (found : c.phases[k]? = some p) :
    ∃ p', (c.updatePhase j f).phases[k]? = some p' ∧ p'.outstanding ≤ p.outstanding := by
  refine ⟨_, getElem?_modify_eq_some.mpr ⟨p, found, rfl⟩, ?_⟩
  split
  · exact hf p
  · exact Nat.le_refl _

theorem Progress.outstanding_le (h : Progress c d c' d') (found : c.phases[k]? = some p) :
    ∃ p', c'.phases[k]? = some p' ∧ p'.outstanding ≤ p.outstanding := by
  cases h with
  | complete => exact outstanding_updatePhase (fun _ => Nat.le_refl _) found
  | record => exact outstanding_updatePhase (fun _ => Nat.sub_le _ 1) found
  | advance => exact outstanding_updatePhase (fun _ => Nat.le_refl _) found
  | _ => exact ⟨p, found, Nat.le_refl _⟩

theorem Intake.outstanding_le (h : Intake c m c' d) (found : c.phases[k]? = some p) :
    ∃ p', c'.phases[k]? = some p' ∧ p'.outstanding ≤ p.outstanding := by
  cases h with
  | start => exact ⟨p, getElem?_push_eq_some found, Nat.le_refl _⟩
  | _ => exact ⟨p, found, Nat.le_refl _⟩

theorem isFinished_updatePhase {j : Nat} {f : Phase → Phase}
    (hf : ∀ p, (f p).outstanding = p.outstanding) :
    (c.updatePhase j f).IsFinished k ↔ c.IsFinished k := by
  constructor
  · rintro ⟨p, hp, hz⟩
    obtain ⟨q, hq, rfl⟩ := getElem?_modify_eq_some.mp hp
    refine ⟨q, hq, ?_⟩
    split at hz
    · exact hf q ▸ hz
    · exact hz
  · rintro ⟨p, hp, hz⟩
    refine ⟨_, getElem?_modify_eq_some.mpr ⟨p, hp, rfl⟩, ?_⟩
    split
    · exact (hf p).trans hz
    · exact hz

theorem isFinished_record {a : Attempt} {outcome : Outcome} (found : c.phases[a.phase]? = some p)
    (hpos : 0 < p.outstanding) :
    (c.updatePhase a.phase (·.record a.slot outcome)).IsFinished k ↔
      c.IsFinished k ∨ (a.phase = k ∧ p.outstanding = 1) := by
  constructor
  · rintro ⟨q, hq, hz⟩
    rcases phases_updatePhase found hq with ⟨rfl, rfl⟩ | ⟨-, hq⟩
    · exact .inr ⟨rfl, Nat.le_antisymm (Nat.sub_eq_zero_iff_le.mp hz) hpos⟩
    · exact .inl ⟨q, hq, hz⟩
  · rintro (⟨q, hq, hz⟩ | ⟨rfl, hone⟩)
    · obtain ⟨q', hq', hle⟩ := outstanding_updatePhase (f := (·.record a.slot outcome))
        (fun _ => Nat.sub_le _ 1) hq
      exact ⟨q', hq', Nat.eq_zero_of_le_zero (hz ▸ hle)⟩
    · refine ⟨_, getElem?_modify_eq_some.mpr ⟨p, found, rfl⟩, ?_⟩
      simp [Phase.record, hone]

theorem Progress.isFinished_iff (h : Progress c d c' d') (sound : c.Sound d) :
    c'.IsFinished k ↔ c.IsFinished k ∨ d'.completes = some k := by
  cases h with
  | @complete phase caller p found =>
      have hsame := isFinished_updatePhase (c := c) (k := k) (j := phase)
        (f := (·.conclude (c.resultOf p))) fun _ => rfl
      exact hsame.trans (or_iff_left (by simp [Duty.completes])).symm
  | supersede => exact (or_iff_left (by simp [Caller.completes_duty])).symm
  | @record a outcome caller p s found slot current =>
      have hpos := (sound.books.balanced found).outstanding_pos slot current
      rw [isFinished_record found hpos]
      split
      · rename_i hone
        simp [Duty.completes, hone]
      · rename_i hne
        simp [Caller.completes_duty, hne]
  | @advance a error target node p s found phase slot current =>
      have hsame := isFinished_updatePhase (c := c) (k := k) (j := a.phase)
        (f := (·.advance a.slot a.copy)) fun _ => rfl
      exact hsame.trans (or_iff_left (by simp [Duty.completes])).symm
  | _ => exact (or_iff_left (by simp [Duty.completes])).symm

theorem Intake.isFinished_iff (h : Intake c m c' d) :
    c'.IsFinished k ↔ c.IsFinished k ∨ d.completes = some k := by
  cases h with
  | @start targets request admitted =>
      constructor
      · rintro ⟨p, hp, hz⟩
        rcases phases_openPhase hp with ⟨rfl, rfl⟩ | ⟨-, hp⟩
        · have hnil : targets = [] := List.eq_nil_of_length_eq_zero hz
          exact .inr (by simp [hnil, Duty.completes, logAll])
        · exact .inl ⟨p, hp, hz⟩
      · rintro (⟨p, hp, hz⟩ | hdue)
        · exact ⟨p, getElem?_push_eq_some hp, hz⟩
        · split at hdue
          · rename_i hnil
            obtain rfl := Option.some.inj hdue
            exact ⟨_, Array.getElem?_push_size, by simp_all [Phase.ofTargets]⟩
          · simp [Duty.completes] at hdue
  | returned => exact (or_iff_left (by simp [Caller.completes_duty])).symm
  | _ => exact (or_iff_left (by simp [Duty.completes])).symm

theorem Progress.not_isFinished (h : Progress c d c' d') (sound : c.Sound d)
    (hdue : d'.completes = some k) : ¬ c.IsFinished k := by
  cases h with
  | @record a outcome caller p s found slot current =>
      split at hdue
      · rename_i hone
        obtain rfl := Option.some.inj hdue
        rintro ⟨q, hq, hz⟩
        obtain rfl := Option.some.inj (found.symm.trans hq)
        simp [hone] at hz
      · simp [Caller.completes_duty] at hdue
  | supersede => simp [Caller.completes_duty] at hdue
  | _ => simp [Duty.completes] at hdue

theorem Intake.not_isFinished (h : Intake c m c' d) (hdue : d.completes = some k) :
    ¬ c.IsFinished k := by
  cases h with
  | start =>
      split at hdue
      · obtain rfl := Option.some.inj hdue
        rintro ⟨q, hq, -⟩
        simp at hq
      · simp [Duty.completes] at hdue
  | returned => simp [Caller.completes_duty] at hdue
  | _ => simp [Duty.completes] at hdue

theorem Progress.delivers_iff (h : Progress c d c' d') :
    d'.delivers k ↔ d.delivers k ∨ d'.completes = some k := by
  cases h with
  | supersede => simp [Caller.delivers_duty, Duty.delivers_finish, Caller.completes_duty]
  | record =>
      split
      · simp [Duty.delivers, Duty.completes]
      · simp [Caller.delivers_duty, Duty.delivers_finish, Caller.completes_duty]
  | _ => simp [Duty.delivers, Duty.completes]

theorem Intake.delivers_iff (h : Intake c m c' d) : d.delivers k ↔ d.completes = some k := by
  cases h with
  | start =>
      split
      · simp [Duty.delivers, Duty.completes]
      · simp [Duty.delivers, Duty.completes]
  | returned => simp [Caller.delivers_duty, Caller.completes_duty]
  | _ => simp [Duty.delivers, Duty.completes]

/-- In the course of a move, the counter of a phase only falls, and the next phase is called just when
the phase is finished that was not finished before. -/
structure Closing (before : Coordinator) (k : Nat) (c : Coordinator) (d : Duty) : Prop where
  outstanding_le : ∀ {p : Phase}, before.phases[k]? = some p →
    ∃ p', c.phases[k]? = some p' ∧ p'.outstanding ≤ p.outstanding
  delivers_iff : d.delivers k ↔ ¬ before.IsFinished k ∧ c.IsFinished k

theorem Closing.isFinished (h : Closing before k c d) (hb : before.IsFinished k) : c.IsFinished k := by
  obtain ⟨p, hp, hz⟩ := hb
  obtain ⟨p', hp', hle⟩ := h.outstanding_le hp
  exact ⟨p', hp', Nat.eq_zero_of_le_zero (hz ▸ hle)⟩

theorem Closing.intake (h : Intake c m c' d) (k : Nat) : Closing c k c' d where
  outstanding_le hp := h.outstanding_le hp
  delivers_iff := by
    rw [h.delivers_iff, h.isFinished_iff]
    constructor
    · intro hdue
      exact ⟨h.not_isFinished hdue, .inr hdue⟩
    · rintro ⟨hnot, hfin | hdue⟩
      · exact absurd hfin hnot
      · exact hdue

theorem Closing.progress (h : Closing before k c d) (sound : c.Sound d) (hp : Progress c d c' d') :
    Closing before k c' d' where
  outstanding_le hq := by
    obtain ⟨q, hq, hle⟩ := h.outstanding_le hq
    obtain ⟨q', hq', hle'⟩ := hp.outstanding_le hq
    exact ⟨q', hq', Nat.le_trans hle' hle⟩
  delivers_iff := by
    rw [hp.delivers_iff, h.delivers_iff, hp.isFinished_iff sound]
    constructor
    · rintro (⟨hnot, hfin⟩ | hdue)
      · exact ⟨hnot, .inl hfin⟩
      · exact ⟨fun hb => hp.not_isFinished sound hdue (h.isFinished hb), .inr hdue⟩
    · rintro ⟨hnot, hfin | hdue⟩
      · exact .inl ⟨hnot, hfin⟩
      · exact .inr hdue

theorem Sound.closing (sound : c.Sound (.rest call)) (m : Move) (k : Nat) :
    Closing c k (c.step m).coordinator (.rest (c.step m).call) :=
  sound.step_induction (fun hs h hp => h.progress hs hp) fun hi => .intake hi k

theorem Sound.length_deliveries (sound : c.Sound (.rest call)) (found : c.phases[k]? = some p) :
    (c.deliveries k).length = if p.outstanding = 0 then 1 else 0 := by
  have hcompleted := sound.books.completed_iff found
  rw [sound.books.deliveries_eq, found, Option.bind_some, sound.books.result_eq found]
  by_cases hz : p.outstanding = 0 <;> simp_all [Duty.completes]

/-- Every phase that is accepted is on record and keeps its books at all times: the counter is the
number of open slots, a slot is closed just when its outcome is there, completion is what having
nothing outstanding means, and the next phase is called once, in the very move that leaves nothing
outstanding. No assertion about the books can fail. -/
theorem completed_once (h : Reachable policy moves c) :
    (∀ (targets : List ShardTarget) (request : SearchRequest), startFault? targets request = none →
      ∃ p, (c.step (.start targets request)).coordinator.phases[c.phases.size]? = some p ∧
        p.targets = targets.toArray ∧ p.request = request) ∧
    (∀ (k : Nat) (p : Phase), c.phases[k]? = some p →
      p.outstanding = p.openCount ∧
      (∀ s ∈ p.slots, s.cursor = .done ↔ s.outcome.isSome) ∧
      (p.completed = true ↔ p.outstanding = 0) ∧
      (c.deliveries k).length = if p.outstanding = 0 then 1 else 0) ∧
    (∀ (m : Move) (k : Nat), (c.step m).Delivers k ↔
      ¬ c.IsFinished k ∧ (c.step m).coordinator.IsFinished k) ∧
    (∀ (m : Move) (k : Nat) (p : Phase), c.phases[k]? = some p →
      ∃ p', (c.step m).coordinator.phases[k]? = some p' ∧ p'.outstanding ≤ p.outstanding) ∧
    ∀ e ∈ c.trace.toList, e.isBreach = false := by
  obtain ⟨call, sound⟩ := h.sound
  refine ⟨?_, ?_, ?_, ?_, ?_⟩
  · intro targets request admitted
    exact sound.exists_phase_start admitted
  · intro k p hp
    have hbalanced := sound.books.balanced hp
    refine ⟨hbalanced.outstanding_eq, ?_, ?_, sound.length_deliveries hp⟩
    · intro s hs
      obtain ⟨i, hi⟩ := Array.getElem?_of_mem hs
      exact hbalanced.done_iff hi
    · simpa [Duty.completes] using sound.books.completed_iff hp
  · intro m k
    rw [Turn.delivers_iff]
    exact (sound.closing m k).delivers_iff
  · intro m k p hp
    exact (sound.closing m k).outstanding_le hp
  · intro e he
    exact sound.books.no_breach he

/-- The executor refuses a task after it has run it; the answer comes when the failure is on record. -/
def refusedAfterRun : List Move :=
  [.start [{ shard := default, copies := [default] }] {}, .run 0, .connected default, .sent,
    .refused .shutdown, .returned, .answer 0 (.ok { canMatch := false })]

theorem completed_once_of_refusedAfterRun :
    Reachable {} refusedAfterRun (run {} refusedAfterRun) ∧ (run {} refusedAfterRun).IsFinished 0 ∧
      ((run {} refusedAfterRun).deliveries 0).length = 1 := by
  have h : Reachable {} refusedAfterRun (run {} refusedAfterRun) := reachable_run {} refusedAfterRun
  have hmap : (run {} refusedAfterRun).phases[0]?.map (·.outstanding) = some 0 := by decide +kernel
  obtain ⟨p, hp, hz⟩ := Option.map_eq_some_iff.mp hmap
  have hlen := ((completed_once h).2.1 0 p hp).2.2.2
  refine ⟨h, ⟨p, hp, hz⟩, ?_⟩
  simpa [hz] using hlen

end Coordinator
end Prefilter
