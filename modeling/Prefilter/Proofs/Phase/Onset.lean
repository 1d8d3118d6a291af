import Prefilter.Proofs.Phase.Telling
import Prefilter.Proofs.Phase.Threads

namespace Prefilter.Coordinator

variable {c c' : Coordinator} {d d' : Duty} {m : Move} {a : Attempt} {k i t : Nat}
  {call : Option Frame} {policy : OrderingPolicy} {moves : List Move}

/-- The task of a shard has been run or dropped. -/
def IsBegun (c : Coordinator) (phase slot : Nat) : Prop := ∃ t, c.IsUsed t phase slot

theorem IsBegun.progress (h : c.IsBegun k i) (hp : Progress c d c' d') : c'.IsBegun k i := by
  obtain ⟨t, ht⟩ := h
  exact ⟨t, hp.isUsed ht⟩

theorem IsBegun.intake (h : c.IsBegun k i) (hi : Intake c m c' d) : c'.IsBegun k i := by
  obtain ⟨t, ht⟩ := h
  exact ⟨t, hi.isUsed ht⟩

/-- What has happened to a shard, or is about to, comes after its task; and only finished phases are
handed over. -/
structure Onset (c : Coordinator) (d : Duty) : Prop where
  slot : ∀ {k i : Nat} {s : Slot}, c.slot? k i = some s → s = {} ∨ c.IsBegun k i
  probes : ∀ {q : Nat} {p : Probe}, c.probes[q]? = some p → c.IsBegun p.attempt.phase p.attempt.slot
  resolver : ∀ {a : Attempt}, .connecting a ∈ c.stack → c.IsBegun a.phase a.slot
  duty : ∀ {a : Attempt}, d.Concerns a → c.IsBegun a.phase a.slot
  delivered : ∀ {k : Nat} {caller : Caller}, .delivering k caller ∈ c.stack → c.IsFinished k

namespace Onset

theorem progress_duty (h : c.Onset d) (hp : Progress c d c' d') (concerns : d'.Concerns a) :
    c.IsBegun a.phase a.slot := by
  cases hp with
  | supersede => exact absurd concerns Caller.not_concerns_duty
  | record =>
      split at concerns
      · exact concerns.elim
      · exact absurd concerns Caller.not_concerns_duty
  | exhaust => exact h.duty concerns
  | @advance b =>
      obtain rfl : b.next = a := concerns
      exact h.duty (a := b) rfl
  | _ => exact concerns.elim

theorem progress_delivered (h : c.Onset d) (sound : c.Sound d) (hp : Progress c d c' d')
    {caller : Caller} (under : .delivering k caller ∈ c'.stack) : c.IsFinished k := by
  cases hp with
  | complete found =>
      rcases List.mem_cons.mp under with heq | hunder
      · obtain ⟨rfl, rfl⟩ := Frame.delivering.inj heq
        exact ⟨_, found, sound.books.due rfl found⟩
      · exact h.delivered hunder
  | submit | connect | send =>
      rcases List.mem_cons.mp under with heq | hunder
      · cases heq
      · exact h.delivered hunder
  | _ => exact h.delivered under

theorem progress (h : c.Onset d) (sound : c.Sound d) (hp : Progress c d c' d') : c'.Onset d' where
  slot {k i s'} hs' := by
    cases hp.slotChange sound k i with
    | same eq => exact (h.slot (eq ▸ hs')).imp id fun hbegun => hbegun.progress hp
    | recorded duty phase slot | advanced duty phase slot =>
        subst duty phase slot
        exact .inr ((h.duty rfl).progress hp)
  probes hq := by
    rcases Timely.progress_probes hp hq with hold | ⟨-, concerns⟩
    · exact (h.probes hold).progress hp
    · exact (h.duty concerns).progress hp
  resolver under := by
    rcases Timely.progress_resolver hp under with hold | concerns
    · exact (h.resolver hold).progress hp
    · exact (h.duty concerns).progress hp
  duty concerns := (h.progress_duty hp concerns).progress hp
  delivered under := (hp.isFinished_iff sound).mpr (.inl (h.progress_delivered sound hp under))

theorem intake_duty (h : c.Onset (.rest call)) (disposes : Disposes c m) (hi : Intake c m c' d)
    (concerns : d.Concerns a) : c'.IsBegun a.phase a.slot := by
  cases hi with
  | start => split at concerns <;> exact concerns.elim
  | @run task e found pending =>
      obtain rfl : ⟨e.phase, e.slot, 0⟩ = a := concerns
      have hpending : c.IsPending task e.phase e.slot := by
        rw [IsPending, found, ← pending]
      exact ⟨task, hpending.isUsed_useTask⟩
  | @discard task e target found pending =>
      obtain rfl : ⟨e.phase, e.slot, 0⟩ = a := concerns
      have hpending : c.IsPending task e.phase e.slot := by
        rw [IsPending, found, ← pending]
      exact ⟨task, hpending.isUsed_useTask⟩
  | @refused task e target error stack top found =>
      obtain rfl : ⟨e.phase, e.slot, 0⟩ = a := concerns
      refine ⟨task, ?_⟩
      cases hpending : e.pending with
      | true =>
          have hwaits : c.IsPending task e.phase e.slot := by rw [IsPending, found, ← hpending]
          exact absurd hwaits (disposes rfl top)
      | false =>
          rw [IsUsed, ← hpending]
          exact found
  | answer found | answerError found | abandon found | unsent _ found =>
      exact concerns ▸ h.probes found
  | connected top | unreachable top => exact concerns ▸ h.resolver (top ▸ List.mem_cons_self)
  | returned => exact absurd concerns Caller.not_concerns_duty
  | _ => exact concerns.elim

theorem intake (h : c.Onset (.rest call)) (disposes : Disposes c m) (hi : Intake c m c' d) :
    c'.Onset d where
  slot {k i s} hs := by
    rcases hi.slot?_cases k i with heq | ⟨_, _, -, -, -, -, hfresh, -⟩
    · exact (h.slot (heq ▸ hs)).imp id fun hbegun => hbegun.intake hi
    · exact .inl (Option.some.inj (hs.symm.trans hfresh))
  probes hq := by
    obtain ⟨old, hold, hattempt, -⟩ := Timely.intake_probes hi hq
    exact hattempt ▸ (h.probes hold).intake hi
  resolver under := (h.resolver (Timely.intake_resolver hi under)).intake hi
  duty concerns := h.intake_duty disposes hi concerns
  delivered under := hi.isFinished_iff.mpr (.inl (h.delivered (hi.mem_stack_of_mem under)))

theorem reorder {stack : List Frame} (h : c.Onset (.rest call)) (perm : stack.Perm c.stack) :
    Onset { c with stack } (.rest call) where
  slot := h.slot
  probes := h.probes
  resolver under := h.resolver (perm.mem_iff.mp under)
  duty := h.duty
  delivered under := h.delivered (perm.mem_iff.mp under)

end Onset

theorem preserved_onset : Preserved Disposes Onset where
  intake _ h disposes hi := h.intake disposes hi
  progress sound h hp := h.progress sound hp
  reorder h perm := h.reorder perm

theorem Run.onset (run : Run Disposes { policy } moves c) :
    ∃ call, c.Sound (.rest call) ∧ c.Onset (.rest call) := by
  refine preserved_onset.run run (sound_initial policy) ⟨?_, ?_, ?_, ?_, ?_⟩
  · simp [slot?]
  · simp
  · simp
  · exact fun concerns => concerns.elim
  · simp

theorem Sound.not_isFinished_of_copy (sound : c.Sound d) {s : Slot} {copy : Nat}
    (hs : c.slot? k i = some s) (hcopy : s.cursor = .copy copy) : ¬ c.IsFinished k := by
  rintro ⟨p, hp, hz⟩
  obtain ⟨q, hq, hps⟩ := slot?_eq_some.mp hs
  obtain rfl := Option.some.inj (hp.symm.trans hq)
  have hpos := (sound.books.balanced hp).outstanding_pos hps hcopy
  omega

theorem Run.slot?_of_isPending (run : Run Disposes { policy } moves c) (h : c.IsPending t k i) :
    c.slot? k i = some {} := by
  obtain ⟨call, sound, onset⟩ := run.onset
  obtain ⟨_, hlooped⟩ := run.looped
  obtain ⟨target, ht⟩ := sound.grounded.tasks h
  obtain ⟨s, hs⟩ := sound.exists_slot? ht
  rcases onset.slot hs with rfl | ⟨t', hused⟩
  · exact hs
  · obtain rfl := (hlooped k).unique h.isTaskOf hused.isTaskOf
    exact absurd h hused.not_isPending

end Prefilter.Coordinator
