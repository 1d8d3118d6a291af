import Prefilter.Proofs.Phase.Completion
import Prefilter.Proofs.Phase.SlotChange

namespace Prefilter

/-- The loop that hands tasks to the executor goes on after the next phase, and gets to a position. -/
def Caller.Reaches (slot : Nat) : Caller → Prop
  | .start first => first ≤ slot
  | .entry | .exhausted .. => False

/-- The loop that hands over the tasks of a phase goes on after a call, and gets to a position. -/
def Frame.Reaches (c : Coordinator) (phase slot : Nat) : Frame → Prop
  | .submitting task => ∃ d, c.tasks[task]? = some d ∧ d.phase = phase ∧ d.slot < slot
  | .delivering other caller => other = phase ∧ caller.Reaches slot
  | .connecting _ | .sending _ => False

namespace Duty

/-- The loop that hands over the tasks of a phase is part of what is left to do, and gets to a
position. -/
def Reaches (phase slot : Nat) : Duty → Prop
  | .submit other first => other = phase ∧ first ≤ slot
  | .complete other caller => other = phase ∧ caller.Reaches slot
  | .finish a _ caller => a.phase = phase ∧ caller.Reaches slot
  | _ => False

/-- The duty is about an attempt. -/
def Concerns (a : Attempt) : Duty → Prop
  | .finish b .. | .dispatch b | .fail b _ | .send b _ => b = a
  | _ => False

def Ends (a : Attempt) : Duty → Prop
  | .finish b .. | .fail b _ => b = a
  | _ => False

end Duty

/-- Whether a shard is past a copy. -/
def Cursor.IsPast (copy : Nat) : Cursor → Prop
  | .copy index => copy < index
  | .done => True

/-- The call is one to the executor, to the resolver or to the next phase, for a phase. -/
def Frame.Serves (c : Coordinator) (phase : Nat) : Frame → Prop
  | .submitting task => ∃ d, c.tasks[task]? = some d ∧ d.phase = phase
  | .connecting a => a.phase = phase
  | .delivering other _ => other = phase
  | .sending _ => False

theorem Caller.Reaches.duty {phase slot : Nat} {caller : Caller} (h : caller.Reaches slot) :
    (caller.duty phase).Reaches phase slot := by
  cases caller with
  | start first => exact ⟨rfl, h⟩
  | entry => exact h.elim
  | exhausted slot copy => exact h.elim

namespace Coordinator

variable {c c' : Coordinator} {d d' : Duty} {m : Move} {k i j : Nat} {a : Attempt} {p : Phase}
  {call : Option Frame} {policy : OrderingPolicy} {moves : List Move}

/-- The task has been neither run nor dropped, and is that of a shard. -/
def IsPending (c : Coordinator) (task phase slot : Nat) : Prop :=
  c.tasks[task]? = some { phase, slot, pending := true }

/-- The listener has been neither resolved nor dropped, and is that of an attempt. -/
def IsUnresolved (c : Coordinator) (probe : Nat) (a : Attempt) : Prop :=
  ∃ p, c.probes[probe]? = some p ∧ p.listener.resolved = false ∧ p.attempt = a

theorem not_isPending_useTask {task : Nat} : ¬ (c.useTask task).IsPending task k i := by
  intro h
  obtain ⟨old, -, heq⟩ := getElem?_modify_eq_some.mp h
  simp at heq

theorem isPending_of_useTask {task other : Nat} (h : (c.useTask task).IsPending other k i) :
    c.IsPending other k i := by
  obtain ⟨old, hold, heq⟩ := getElem?_modify_eq_some.mp h
  split at heq
  · cases heq
  · exact hold.trans (congrArg some heq)

theorem not_isUnresolved_useListener {probe : Nat} : ¬ (c.useListener probe).IsUnresolved probe a := by
  rintro ⟨p, hp, hu, -⟩
  obtain ⟨old, -, rfl⟩ := getElem?_modify_eq_some.mp hp
  simp at hu

theorem isUnresolved_of_useListener {probe other : Nat}
    (h : (c.useListener probe).IsUnresolved other a) : c.IsUnresolved other a := by
  obtain ⟨p, hp, hu, ha⟩ := h
  obtain ⟨old, hold, rfl⟩ := getElem?_modify_eq_some.mp hp
  by_cases hother : probe = other
  · simp [hother] at hu
  · rw [if_neg hother] at hu ha
    exact ⟨old, hold, hu, ha⟩

/-- Who sees to an attempt. -/
inductive Owed (c : Coordinator) (d : Duty) : Attempt → Prop where
  | task {task phase slot : Nat} (pending : c.IsPending task phase slot) : Owed c d ⟨phase, slot, 0⟩
  | listener {probe : Nat} {a : Attempt} (unresolved : c.IsUnresolved probe a) : Owed c d a
  | resolver {a : Attempt} (under : .connecting a ∈ c.stack) : Owed c d a
  | call {f : Frame} {phase slot : Nat} (under : f ∈ c.stack) (reaches : f.Reaches c phase slot) :
      Owed c d ⟨phase, slot, 0⟩
  | duty {a : Attempt} (concerns : d.Concerns a) : Owed c d a
  | loop {phase slot : Nat} (reaches : d.Reaches phase slot) : Owed c d ⟨phase, slot, 0⟩

theorem Extends.reaches (e : Extends c c') {f : Frame} (h : f.Reaches c k i) : f.Reaches c' k i := by
  cases f with
  | submitting task =>
      obtain ⟨d, hd, hphase, hslot⟩ := h
      obtain ⟨d', hd', hphase', hslot'⟩ := e.tasks hd
      exact ⟨d', hd', hphase'.trans hphase, hslot' ▸ hslot⟩
  | delivering phase caller => exact h
  | connecting a => exact h.elim
  | sending probe => exact h.elim

theorem Progress.isPending {task : Nat} (hp : Progress c d c' d') (h : c.IsPending task k i) :
    c'.IsPending task k i := by
  cases hp with
  | submit => exact getElem?_push_eq_some h
  | _ => exact h

theorem Progress.isUnresolved {probe : Nat} (hp : Progress c d c' d') (h : c.IsUnresolved probe a) :
    c'.IsUnresolved probe a := by
  cases hp with
  | send =>
      obtain ⟨p, hp, hu⟩ := h
      exact ⟨p, getElem?_push_eq_some hp, hu⟩
  | _ => exact h

theorem Progress.mem_stack {f : Frame} (hp : Progress c d c' d') (h : f ∈ c.stack) : f ∈ c'.stack := by
  cases hp with
  | submit | complete | connect | send => exact List.mem_cons_of_mem _ h
  | _ => exact h

theorem Progress.owed_of_concerns (hp : Progress c d c' d') (sound : c.Sound d)
    (current : c.isCurrent a = true) (still : c'.isCurrent a = true) (h : d.Concerns a) :
    Owed c' d' a := by
  cases hp with
  | submitLast | submit | complete => exact h.elim
  | supersede stale | ignore _ stale =>
      obtain rfl : _ = a := h
      simp [stale] at current
  | @record b outcome caller p s found slot hcopy =>
      obtain rfl : b = a := h
      obtain ⟨s', hs', hc'⟩ := isCurrent_iff_slot?.mp still
      rw [slot?_record, if_pos ⟨rfl, rfl⟩] at hs'
      obtain ⟨s'', -, rfl⟩ := Option.map_eq_some_iff.mp hs'
      cases hc'
  | connect =>
      obtain rfl : _ = a := h
      exact .resolver List.mem_cons_self
  | exhaust => exact .duty h
  | @advance b error target node p s found phase slot hcopy =>
      obtain rfl : b = a := h
      obtain ⟨s', hs', hc'⟩ := isCurrent_iff_slot?.mp still
      rw [slot?_advance, if_pos ⟨rfl, rfl⟩] at hs'
      obtain ⟨s'', -, rfl⟩ := Option.map_eq_some_iff.mp hs'
      exact absurd (Cursor.copy.inj hc') (Nat.succ_ne_self _)
  | send =>
      obtain rfl : _ = a := h
      exact .listener ⟨_, Array.getElem?_push_size, rfl, rfl⟩

theorem Progress.owed_of_reaches (hp : Progress c d c' d') (sound : c.Sound d)
    (current : c.isCurrent ⟨k, i, 0⟩ = true) (h : d.Reaches k i) : Owed c' d' ⟨k, i, 0⟩ := by
  cases hp with
  | @submitLast phase slot beyond =>
      obtain ⟨rfl, hle⟩ := h
      obtain ⟨p, s, hp, hs, -⟩ := isCurrent_iff.mp current
      have hsize := (sound.books.balanced hp).slots_size
      have hlt := (Array.getElem?_eq_some_iff.mp hs).1
      have hnone : p.targets[slot]? = none := by simpa [target?, hp] using beyond
      have := Array.getElem?_eq_none_iff.mp hnone
      simp only at hlt
      omega
  | @submit phase slot target found =>
      obtain ⟨rfl, hle⟩ := h
      rcases Nat.eq_or_lt_of_le hle with rfl | hlt
      · have hpending : IsPending ((c.addTask phase slot).push (.submitting c.tasks.size))
            c.tasks.size phase slot := Array.getElem?_push_size
        exact .task hpending
      · exact .call List.mem_cons_self ⟨_, Array.getElem?_push_size, rfl, hlt⟩
  | complete => exact .call List.mem_cons_self h
  | supersede =>
      obtain ⟨rfl, hcaller⟩ := h
      exact .loop hcaller.duty
  | record =>
      obtain ⟨rfl, hcaller⟩ := h
      split
      · exact .loop ⟨rfl, hcaller⟩
      · exact .loop hcaller.duty
  | _ => exact h.elim

theorem Owed.progress (h : Owed c d a) (hp : Progress c d c' d') (sound : c.Sound d)
    (current : c.isCurrent a = true) (still : c'.isCurrent a = true) : Owed c' d' a := by
  cases h with
  | task pending => exact .task (hp.isPending pending)
  | listener unresolved => exact .listener (hp.isUnresolved unresolved)
  | resolver under => exact .resolver (hp.mem_stack under)
  | call under reaches => exact .call (hp.mem_stack under) (hp.extends.reaches reaches)
  | duty concerns => exact hp.owed_of_concerns sound current still concerns
  | loop reaches => exact hp.owed_of_reaches sound current reaches

theorem Intake.isPending_or {task : Nat} (hi : Intake c m c' d) (h : c.IsPending task k i) :
    c'.IsPending task k i ∨ d.Concerns ⟨k, i, 0⟩ := by
  cases hi with
  | @run other e found | @discard other e target found =>
      by_cases hother : other = task
      · subst hother
        obtain rfl := Option.some.inj (found.symm.trans h)
        exact .inr rfl
      · exact .inl (getElem?_modify_eq_some.mpr ⟨_, h, if_neg hother⟩)
  | _ => exact .inl h

theorem Intake.isUnresolved_or {probe : Nat} (hi : Intake c m c' d) (h : c.IsUnresolved probe a) :
    c'.IsUnresolved probe a ∨ d.Concerns a := by
  obtain ⟨p, hp, hu, ha⟩ := h
  cases hi with
  | @answer other q response found | @answerError other q error found | @abandon other q found =>
      by_cases hother : other = probe
      · subst hother
        obtain rfl := Option.some.inj (found.symm.trans hp)
        exact .inr ha
      · exact .inl ⟨p, getElem?_modify_eq_some.mpr ⟨_, hp, if_neg hother⟩, hu, ha⟩
  | _ => exact .inl ⟨p, hp, hu, ha⟩

theorem Intake.connecting_or (hi : Intake c m c' d) (h : .connecting a ∈ c.stack) :
    .connecting a ∈ c'.stack ∨ d.Concerns a := by
  cases hi with
  | accepted top | refused top | sent top | unsent top | returned top =>
      exact .inl (by simpa [top, log, emit] using h)
  | connected top | unreachable top =>
      rcases List.mem_cons.mp (top ▸ h) with heq | h
      · exact .inr (Frame.connecting.inj heq).symm
      · exact .inl h
  | _ => exact .inl h

theorem Intake.reaches_or {f : Frame} (hi : Intake c m c' d) (hf : f ∈ c.stack)
    (h : f.Reaches c k i) : f ∈ c'.stack ∨ d.Reaches k i := by
  cases hi with
  | @accepted task e stack top found | @refused task e target error stack top found =>
      rcases List.mem_cons.mp (top ▸ hf) with rfl | hf
      · obtain ⟨e', he', hphase, hslot⟩ := h
        obtain rfl := Option.some.inj (found.symm.trans he')
        exact .inr ⟨hphase, hslot⟩
      · exact .inl hf
  | returned top =>
      rcases List.mem_cons.mp (top ▸ hf) with rfl | hf
      · obtain ⟨rfl, hcaller⟩ := h
        exact .inr hcaller.duty
      · exact .inl hf
  | connected top | unreachable top | sent top | unsent top =>
      rcases List.mem_cons.mp (top ▸ hf) with rfl | hf
      · exact h.elim
      · exact .inl hf
  | _ => exact .inl hf

theorem Owed.intake (h : Owed c (.rest call) a) (hi : Intake c m c' d) : Owed c' d a := by
  cases h with
  | task pending =>
      rcases hi.isPending_or pending with hpending | hconcerns
      · exact .task hpending
      · exact .duty hconcerns
  | listener unresolved =>
      rcases hi.isUnresolved_or unresolved with hunresolved | hconcerns
      · exact .listener hunresolved
      · exact .duty hconcerns
  | resolver under =>
      rcases hi.connecting_or under with hunder | hconcerns
      · exact .resolver hunder
      · exact .duty hconcerns
  | call under reaches =>
      rcases hi.reaches_or under reaches with hunder | hreaches
      · exact .call hunder (hi.extends.reaches reaches)
      · exact .loop hreaches
  | duty concerns => exact concerns.elim
  | loop reaches => exact reaches.elim

/-- The current attempt of every open shard is seen to. -/
def Attended (c : Coordinator) (d : Duty) : Prop := ∀ a, c.isCurrent a = true → Owed c d a

theorem Attended.progress (h : Attended c d) (sound : c.Sound d) (hp : Progress c d c' d') :
    Attended c' d' := by
  intro a still
  obtain ⟨s, hs, hc⟩ := isCurrent_iff_slot?.mp still
  cases hp.slotChange sound a.phase a.slot with
  | same eq =>
      have current : c.isCurrent a = true := isCurrent_iff_slot?.mpr ⟨s, eq ▸ hs, hc⟩
      exact (h a current).progress hp sound current still
  | recorded duty phase slot before after =>
      obtain rfl := Option.some.inj (after.symm.trans hs)
      cases hc
  | advanced duty phase slot before after next =>
      -- The attempt at the next copy is what is left to do.
      obtain rfl := Option.some.inj (after.symm.trans hs)
      have hnext : Attempt.next _ = a :=
        (Attempt.mk.injEq ..).mpr ⟨phase, slot, Cursor.copy.inj hc⟩
      exact .duty (next ▸ hnext)

theorem Attended.intake (h : Attended c (.rest call)) (hi : Intake c m c' d) : Attended c' d := by
  intro a still
  obtain ⟨s, hs, hc⟩ := isCurrent_iff_slot?.mp still
  rcases hi.slot?_cases a.phase a.slot with heq | ⟨_, _, -, -, -, -, hfresh, hd⟩
  · exact (h a (isCurrent_iff_slot?.mpr ⟨s, heq ▸ hs, hc⟩)).intake hi
  · obtain rfl := Option.some.inj (hfresh.symm.trans hs)
    obtain ⟨phase, slot, copy⟩ := a
    obtain rfl : 0 = copy := Cursor.copy.inj hc
    exact .loop (hd ▸ ⟨rfl, Nat.zero_le slot⟩)

theorem Attended.reorder {stack : List Frame} (h : Attended c (.rest call))
    (perm : stack.Perm c.stack) : Attended { c with stack } (.rest call) := by
  intro a current
  cases h a current with
  | task pending => exact .task pending
  | listener unresolved => exact .listener unresolved
  | resolver under => exact .resolver (perm.mem_iff.mpr under)
  | call under reaches =>
      have e : Extends c { c with stack } := .of_eq rfl rfl rfl
      exact .call (perm.mem_iff.mpr under) (e.reaches reaches)
  | duty concerns => exact concerns.elim
  | loop reaches => exact reaches.elim

theorem preserved_attended : Preserved (fun _ _ => True) Attended where
  intake _ h _ hi := h.intake hi
  progress sound h hp := h.progress sound hp
  reorder h perm := h.reorder perm

theorem Reachable.attended (h : Reachable policy moves c) :
    ∃ call, c.Sound (.rest call) ∧ Attended c (.rest call) :=
  preserved_attended.run h (sound_initial policy) (by simp [Attended, isCurrent, slot?])

/-- An outcome that is there stays as it is. -/
theorem preserved_done {o : Option Outcome} {allowed : Coordinator → Move → Prop} :
    Preserved allowed fun c _ => c.slot? k i = some ⟨.done, o⟩ where
  intake _ h _ hi := hi.slot?_of_some h
  progress sound h hp := hp.slot?_done sound h
  reorder h _ := h

/-- The attempt is over: its shard has gone on to a later copy, or has its outcome. -/
def IsOver (c : Coordinator) (a : Attempt) : Prop :=
  ∃ s, c.slot? a.phase a.slot = some s ∧ s.cursor.IsPast a.copy

theorem IsOver.progress (h : c.IsOver a) (sound : c.Sound d) (hp : Progress c d c' d') :
    c'.IsOver a := by
  obtain ⟨s, hs, hpast⟩ := h
  cases hp.slotChange sound a.phase a.slot with
  | same eq => exact ⟨s, eq ▸ hs, hpast⟩
  | recorded duty phase slot before after => exact ⟨_, after, trivial⟩
  | advanced duty phase slot before after next =>
      obtain rfl := Option.some.inj (before.symm.trans hs)
      exact ⟨_, after, Nat.lt_succ_of_lt hpast⟩

theorem Progress.isOver_of_ends (hp : Progress c d c' d') (sound : c.Sound d)
    (current : c.isCurrent a = true) (h : d.Ends a) : c'.IsOver a := by
  cases hp with
  | supersede stale | ignore _ stale =>
      obtain rfl : _ = a := h
      simp [stale] at current
  | @record b outcome caller p s found slot hcopy =>
      obtain rfl : b = a := h
      have hs : c.slot? b.phase b.slot = some s := slot?_eq_some.mpr ⟨p, found, slot⟩
      exact ⟨⟨.done, s.outcome.or (some outcome)⟩,
        by rw [slot?_record, if_pos ⟨rfl, rfl⟩, hs, Option.map_some], trivial⟩
  | @advance b error target node p s found phase slot hcopy =>
      obtain rfl : b = a := h
      have hs : (c.log (.attemptFailed b target node error)).slot? b.phase b.slot = some s :=
        slot?_eq_some.mpr ⟨p, phase, slot⟩
      exact ⟨⟨.copy (b.copy + 1), s.outcome⟩,
        by rw [slot?_advance, if_pos ⟨rfl, rfl⟩, hs, Option.map_some], Nat.lt_succ_self b.copy⟩
  | _ => exact h.elim

/-- To end the current attempt of a shard moves the shard on. -/
theorem Sound.isOver_perform (sound : c.Sound d) (current : c.isCurrent a = true) (h : d.Ends a) :
    (c.perform d).coordinator.IsOver a := by
  have hend := sound.perform_induction
    (P := fun c d => (c.isCurrent a = true ∧ d.Ends a) ∨ c.IsOver a)
    (fun sound h hp => by
      rcases h with ⟨current, hends⟩ | hover
      · exact .inr (hp.isOver_of_ends sound current hends)
      · exact .inr (hover.progress sound hp))
    (.inl ⟨current, h⟩)
  rcases hend with ⟨-, hrest⟩ | hover
  · exact hrest.elim
  · exact hover

theorem Sound.isOver_discard (sound : c.Sound (.rest call)) {task : Nat}
    (pending : c.IsPending task k i) (current : c.isCurrent ⟨k, i, 0⟩ = true) :
    (c.step (.discard task)).coordinator.IsOver ⟨k, i, 0⟩ := by
  obtain ⟨target, htarget⟩ := sound.grounded.tasks pending
  rw [step_discard pending rfl htarget]
  exact (sound.intake (.discard pending rfl htarget)).isOver_perform current rfl

theorem Sound.isOver_answer (sound : c.Sound (.rest call)) {probe : Nat}
    (unresolved : c.IsUnresolved probe a) (current : c.isCurrent a = true) (result : ProbeResult) :
    (c.step (.answer probe result)).coordinator.IsOver a := by
  obtain ⟨p, hp, hu, rfl⟩ := unresolved
  cases result with
  | ok response =>
      rw [step_answer hp hu]
      exact (sound.intake (.answer hp hu)).isOver_perform current rfl
  | error error =>
      rw [step_answerError hp hu]
      exact (sound.intake (.answerError hp hu)).isOver_perform current rfl

/-- No call to the executor, to the resolver or to the next phase is under way for a phase. -/
def IsIdle (c : Coordinator) (phase : Nat) : Prop := ∀ f ∈ c.stack, ¬ f.Serves c phase

theorem Owed.of_isIdle (h : Owed c (.rest call) a) (idle : c.IsIdle a.phase) :
    (a.copy = 0 ∧ ∃ task, c.IsPending task a.phase a.slot) ∨ ∃ probe, c.IsUnresolved probe a := by
  cases h with
  | task pending => exact .inl ⟨rfl, _, pending⟩
  | listener unresolved => exact .inr ⟨_, unresolved⟩
  | resolver under => exact absurd rfl (idle _ under)
  | @call f phase slot under reaches =>
      refine absurd ?_ (idle f under)
      cases f with
      | submitting task =>
          obtain ⟨d, hd, hphase, -⟩ := reaches
          exact ⟨d, hd, hphase⟩
      | delivering other caller => exact reaches.1
      | connecting b => exact reaches.elim
      | sending probe => exact reaches.elim
  | duty concerns => exact concerns.elim
  | loop reaches => exact reaches.elim

/-- Nothing about a phase is under way or can still happen: no call, no task, no listener. -/
structure IsSettled (c : Coordinator) (phase : Nat) : Prop where
  idle : c.IsIdle phase
  tasks : ∀ task slot, ¬ c.IsPending task phase slot
  listeners : ∀ probe a, a.phase = phase → ¬ c.IsUnresolved probe a

theorem Attended.owed (h : Attended c (.rest call)) (idle : c.IsIdle k)
    (current : c.isCurrent ⟨k, i, j⟩ = true) :
    (j = 0 ∧ ∃ task, c.IsPending task k i) ∨ ∃ probe, c.IsUnresolved probe ⟨k, i, j⟩ :=
  (h _ current).of_isIdle idle

theorem Reachable.delivered_of_isSettled (h : Reachable policy moves c)
    (found : c.phases[k]? = some p) (settled : c.IsSettled k) :
    (∀ s ∈ p.slots, s.outcome.isSome) ∧ ∃ result, c.deliveries k = [result] := by
  obtain ⟨call, sound, attended⟩ := h.attended
  have hbalanced := sound.books.balanced found
  have hdone (i : Nat) (s : Slot) (hs : p.slots[i]? = some s) : s.cursor = .done := by
    cases hc : s.cursor with
    | done => rfl
    | copy copy =>
        have current : c.isCurrent ⟨k, i, copy⟩ = true := isCurrent_iff.mpr ⟨p, s, found, hs, hc⟩
        rcases attended.owed settled.idle current with ⟨-, task, pending⟩ | ⟨probe, unresolved⟩
        · exact absurd pending (settled.tasks task i)
        · exact absurd unresolved (settled.listeners probe _ rfl)
  have hzero : p.outstanding = 0 := by
    rw [hbalanced.outstanding_eq, Phase.openCount, Array.countP_eq_zero]
    intro s hs
    obtain ⟨i, hi⟩ := Array.getElem?_of_mem hs
    simp [Slot.isOpen, hdone i s hi]
  constructor
  · intro s hs
    obtain ⟨i, hi⟩ := Array.getElem?_of_mem hs
    exact (hbalanced.done_iff hi).mp (hdone i s hi)
  · apply List.length_eq_one_iff.mp
    rw [sound.length_deliveries found, if_pos hzero]

/-- A phase cannot be wedged. Between the calls for it, a shard without an outcome has its task with
the executor, or the listener of its current attempt with the transport, and to drop the one or to
resolve the other in any way moves the shard on. Once neither has anything left, all outcomes are there
and the next phase has been called. -/
theorem never_wedged (h : Reachable policy moves c) (found : c.phases[k]? = some p) :
    (c.IsIdle k → ∀ (i : Nat) (s : Slot), p.slots[i]? = some s → s.outcome = none →
      ∃ copy, s.cursor = .copy copy ∧
        ((copy = 0 ∧ ∃ task, c.IsPending task k i ∧
            (c.step (.discard task)).coordinator.IsOver ⟨k, i, copy⟩) ∨
          ∃ probe, c.IsUnresolved probe ⟨k, i, copy⟩ ∧
            ∀ result, (c.step (.answer probe result)).coordinator.IsOver ⟨k, i, copy⟩)) ∧
    (c.IsSettled k →
      (∀ s ∈ p.slots, s.outcome.isSome) ∧ ∃ result, c.deliveries k = [result]) := by
  constructor
  · intro idle i s hs hnone
    obtain ⟨call, sound, attended⟩ := h.attended
    cases hc : s.cursor with
    | done => simpa [hnone] using ((sound.books.balanced found).done_iff hs).mp hc
    | copy copy =>
        refine ⟨copy, rfl, ?_⟩
        have current : c.isCurrent ⟨k, i, copy⟩ = true := isCurrent_iff.mpr ⟨p, s, found, hs, hc⟩
        rcases attended.owed idle current with ⟨rfl, task, pending⟩ | ⟨probe, unresolved⟩
        · exact .inl ⟨rfl, task, pending, sound.isOver_discard pending current⟩
        · exact .inr ⟨probe, unresolved, sound.isOver_answer unresolved current⟩
  · exact h.delivered_of_isSettled found

/-- The transport fails to send the first probe, but keeps its listener. -/
def keptListener : List Move :=
  [.start [{ shard := default, copies := [default, default] }] {}, .accepted, .run 0,
    .connected default, .unsent .listenerDropped, .connected default, .sent]

theorem never_wedged_keptListener :
    ∃ p, (run {} keptListener).phases[0]? = some p ∧ (run {} keptListener).IsIdle 0 ∧
      ∃ s copy, p.slots[0]? = some s ∧ s.cursor = .copy copy ∧
        ((copy = 0 ∧ ∃ task, (run {} keptListener).IsPending task 0 0) ∨
          ∃ probe, (run {} keptListener).IsUnresolved probe ⟨0, 0, copy⟩) := by
  have hmap : (run {} keptListener).phases[0]?.map (fun p => p.slots[0]?.map (·.outcome)) =
      some (some none) := by decide +kernel
  obtain ⟨p, hp, hslot⟩ := Option.map_eq_some_iff.mp hmap
  obtain ⟨s, hs, hnone⟩ := Option.map_eq_some_iff.mp hslot
  have idle : (run {} keptListener).IsIdle 0 := by
    have hstack : (run {} keptListener).stack = [] := by decide +kernel
    intro f hf
    simp [hstack] at hf
  obtain ⟨copy, hc, howed⟩ := (never_wedged (reachable_run {} keptListener) hp).1 idle 0 s hs hnone
  refine ⟨p, hp, idle, s, copy, hs, hc, ?_⟩
  rcases howed with ⟨hzero, task, pending, -⟩ | ⟨probe, unresolved, -⟩
  · exact .inl ⟨hzero, task, pending⟩
  · exact .inr ⟨probe, unresolved⟩

end Coordinator
end Prefilter
