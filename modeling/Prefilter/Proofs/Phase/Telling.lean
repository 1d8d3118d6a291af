import Prefilter.Proofs.Phase.Deeds
import Prefilter.Proofs.Phase.Loop
import Prefilter.Proofs.Phase.Passage

namespace Prefilter

/-- The duty is to try a copy of a shard, or to see to one that has failed. -/
def Duty.Pursues (phase slot : Nat) : Duty → Prop
  | .dispatch a | .fail a _ | .send a _ => a.At phase slot
  | _ => False

theorem Caller.not_pursues_duty {phase slot other : Nat} {caller : Caller} :
    ¬ (caller.duty other).Pursues phase slot := by
  cases caller <;> exact id

namespace Coordinator

variable {c c' : Coordinator} {d d' : Duty} {m : Move} {k i t : Nat} {a : Attempt} {deed : Deed}
  {deeds : List Deed} {note : Note} {history : List Note} {moves : List Move} {call : Option Frame}
  {refuses : Nat → Prop} {policy : OrderingPolicy}

/-- The task was run or dropped, and is that of a shard. -/
def IsUsed (c : Coordinator) (task phase slot : Nat) : Prop :=
  c.tasks[task]? = some { phase, slot, pending := false }

theorem IsUsed.isTaskOf (h : c.IsUsed t k i) : c.IsTaskOf t k i := ⟨_, h, rfl, rfl⟩

theorem IsUsed.not_isPending {k' i' : Nat} (h : c.IsUsed t k i) : ¬ c.IsPending t k' i' := fun h' =>
  Bool.false_ne_true (congrArg Dispatch.pending (Option.some.inj (h.symm.trans h')))

/-- A copy of a shard has been looked up or is about to be. -/
inductive Pursued (c : Coordinator) (d : Duty) (phase slot : Nat) : Prop where
  | duty (pursues : d.Pursues phase slot)
  | resolver {a : Attempt} (under : .connecting a ∈ c.stack) (hat : a.At phase slot)
  | probe {q : Nat} {p : Probe} (found : c.probes[q]? = some p) (hat : p.attempt.At phase slot)

theorem Pursued.of_progress (h : Pursued c' d' k i) (hp : Progress c d c' d') : Pursued c d k i := by
  cases h with
  | duty pursues =>
      cases hp with
      | supersede => exact absurd pursues Caller.not_pursues_duty
      | record =>
          split at pursues
          · exact pursues.elim
          · exact absurd pursues Caller.not_pursues_duty
      | advance => exact .duty pursues
      | _ => exact pursues.elim
  | resolver under hat =>
      cases hp with
      | connect =>
          rcases List.mem_cons.mp under with heq | hunder
          · obtain rfl := Frame.connecting.inj heq
            exact .duty hat
          · exact .resolver hunder hat
      | submit | complete | send =>
          rcases List.mem_cons.mp under with heq | hunder
          · cases heq
          · exact .resolver hunder hat
      | _ => exact .resolver under hat
  | probe found hat =>
      cases hp with
      | send =>
          rw [push, addProbe, Array.getElem?_push] at found
          split at found
          · obtain rfl := Option.some.inj found
            exact .duty hat
          · exact .probe found hat
      | _ => exact .probe found hat

theorem Pursued.of_intake (h : Pursued c' d k i) (hi : Intake c m c' d) :
    Pursued c (.rest call) k i ∨ c.note? m = some ⟨k, i, .ran⟩ := by
  cases h with
  | duty pursues =>
      cases hi with
      | start => split at pursues <;> exact pursues.elim
      | run found pending =>
          obtain ⟨rfl, rfl⟩ := pursues
          exact .inr (note?_run found pending)
      | answerError found | abandon found | unsent _ found => exact .inl (.probe found pursues)
      | connected top | unreachable top =>
          exact .inl (.resolver (top ▸ List.mem_cons_self) pursues)
      | returned => exact absurd pursues Caller.not_pursues_duty
      | _ => exact pursues.elim
  | resolver under hat => exact .inl (.resolver (Timely.intake_resolver hi under) hat)
  | probe found hat =>
      obtain ⟨old, hold, hattempt, -⟩ := Timely.intake_probes hi found
      exact .inl (.probe hold (hattempt ▸ hat))

theorem Extends.isTaskOf (e : Extends c c') (h : c.IsTaskOf t k i) : c'.IsTaskOf t k i := by
  obtain ⟨d, hd, hphase, hslot⟩ := h
  obtain ⟨d', hd', hphase', hslot'⟩ := e.tasks hd
  exact ⟨d', hd', hphase'.trans hphase, hslot'.trans hslot⟩

theorem Progress.isUsed (hp : Progress c d c' d') (h : c.IsUsed t k i) : c'.IsUsed t k i := by
  cases hp with
  | submit => exact getElem?_push_eq_some h
  | _ => exact h

theorem Intake.isUsed (hi : Intake c m c' d) (h : c.IsUsed t k i) : c'.IsUsed t k i := by
  cases hi with
  | run | discard => exact getElem?_modify_eq_some.mpr ⟨_, h, by split <;> rfl⟩
  | _ => exact h

theorem IsPending.isUsed_useTask (h : c.IsPending t k i) : (c.useTask t).IsUsed t k i :=
  getElem?_modify_eq_some.mpr ⟨_, h, if_pos rfl⟩

theorem Progress.submitting_cases (hp : Progress c d c' d') (under : .submitting t ∈ c'.stack) :
    .submitting t ∈ c.stack ∨ c.tasks[t]? = none := by
  cases hp with
  | submit =>
      rcases List.mem_cons.mp under with heq | hunder
      · obtain rfl := Frame.submitting.inj heq
        exact .inr (by simp)
      · exact .inl hunder
  | complete | connect | send =>
      rcases List.mem_cons.mp under with heq | hunder
      · cases heq
      · exact .inl hunder
  | _ => exact .inl under

theorem Progress.isTaskOf_cases (hp : Progress c d c' d') (h : c'.IsTaskOf t k i) :
    c.IsTaskOf t k i ∨ .submitting t ∈ c'.stack := by
  cases hp with
  | submit =>
      obtain ⟨e, he, hphase, hslot⟩ := h
      rw [push, addTask, Array.getElem?_push] at he
      split at he
      · rename_i hsize
        exact .inr (hsize ▸ List.mem_cons_self)
      · exact .inl ⟨e, he, hphase, hslot⟩
  | _ => exact .inl h

theorem Intake.mem_stack_of_mem {f : Frame} (hi : Intake c m c' d) (under : f ∈ c'.stack) :
    f ∈ c.stack := by
  cases hi with
  | accepted top | refused top | connected top | unreachable top | sent top | unsent top
  | returned top => exact top ▸ List.mem_cons_of_mem _ under
  | _ => exact under

theorem Intake.submitting_cases (hi : Intake c m c' d) (under : .submitting t ∈ c.stack)
    (task : c.IsTaskOf t k i) : .submitting t ∈ c'.stack ∨ c.note? m = some ⟨k, i, .accepted⟩ ∨
      c.note? m = some ⟨k, i, .refused⟩ := by
  obtain ⟨e, he, rfl, rfl⟩ := task
  cases hi with
  | accepted top found =>
      rcases List.mem_cons.mp (top ▸ under) with heq | hunder
      · obtain rfl := Frame.submitting.inj heq
        exact .inr (.inl (note?_accepted top he))
      · exact .inl hunder
  | refused top found =>
      rcases List.mem_cons.mp (top ▸ under) with heq | hunder
      · obtain rfl := Frame.submitting.inj heq
        exact .inr (.inr (note?_refused top he))
      · exact .inl hunder
  | connected top | unreachable top | sent top | unsent top | returned top =>
      rcases List.mem_cons.mp (top ▸ under) with heq | hunder
      · cases heq
      · exact .inl hunder
  | _ => exact .inl under

theorem Looped.not_mem_of_top {stack : List Frame} (h : Looped c (.rest call) k)
    (top : c.stack = .submitting t :: stack) (task : c.IsTaskOf t k i) : .submitting t ∉ stack := by
  obtain ⟨e, he, hphase, -⟩ := task
  have hposition : (Frame.submitting t).position? c k = some (e.slot + 1) := by
    simp [Frame.position?, he, hphase]
  intro hmem
  have hsole := h.sole
  rw [positions_of_top top, hposition, Option.toList_some, List.length_append,
    List.length_singleton] at hsole
  have hpos := List.length_pos_of_mem (List.mem_filterMap.mpr ⟨_, hmem, hposition⟩)
  omega

theorem mem_deedsOf_toList {o : Option Note} :
    deed ∈ deedsOf o.toList k i ↔ o = some ⟨k, i, deed⟩ := by
  cases o with
  | none => simp [deedsOf]
  | some note =>
      rw [Option.toList_some, deedsOf_singleton]
      cases note
      split <;> simp_all [eq_comm]

theorem deedsOf_note?_cases (c : Coordinator) (m : Move) (k i : Nat) :
    deedsOf (c.note? m).toList k i = [] ∨
      ∃ deed, c.note? m = some ⟨k, i, deed⟩ ∧ deedsOf (c.note? m).toList k i = [deed] := by
  cases h : c.note? m with
  | none => exact .inl rfl
  | some note =>
      rw [Option.toList_some, deedsOf_singleton]
      split
      · rename_i hat
        obtain ⟨rfl, rfl⟩ := hat
        exact .inr ⟨_, rfl, rfl⟩
      · exact .inl rfl

/-- What was done to a shard agrees with what is on record of its task. -/
structure Chronicled (refuses : Nat → Prop) (c : Coordinator) (d : Duty) (phase slot : Nat)
    (deeds : List Deed) : Prop where
  ran : .ran ∈ deeds → ∃ task, c.IsUsed task phase slot ∧ ¬ refuses task
  dropped : .dropped ∈ deeds → ∃ task, c.IsUsed task phase slot
  refused : .refused ∈ deeds →
    ∃ task, c.IsTaskOf task phase slot ∧ refuses task ∧ .submitting task ∉ c.stack
  replied : ∀ {task : Nat}, c.IsTaskOf task phase slot →
    .submitting task ∈ c.stack ∨ .accepted ∈ deeds ∨ .refused ∈ deeds
  pursued : Pursued c d phase slot → .ran ∈ deeds

namespace Chronicled

theorem progress (h : Chronicled refuses c d k i deeds) (hp : Progress c d c' d') :
    Chronicled refuses c' d' k i deeds where
  ran hran := by
    obtain ⟨task, used, hrefuses⟩ := h.ran hran
    exact ⟨task, hp.isUsed used, hrefuses⟩
  dropped hdropped := by
    obtain ⟨task, used⟩ := h.dropped hdropped
    exact ⟨task, hp.isUsed used⟩
  refused hrefused := by
    obtain ⟨task, htask, hrefuses, hgone⟩ := h.refused hrefused
    refine ⟨task, hp.extends.isTaskOf htask, hrefuses, fun under => ?_⟩
    obtain ⟨e, he, -⟩ := htask
    rcases hp.submitting_cases under with hunder | hnew
    · exact hgone hunder
    · simp [he] at hnew
  replied htask := by
    rcases hp.isTaskOf_cases htask with hold | hnew
    · exact (h.replied hold).imp_left hp.mem_stack
    · exact .inl hnew
  pursued hpursued := h.pursued (hpursued.of_progress hp)

theorem intake (h : Chronicled refuses c (.rest call) k i deeds) (looped : Looped c (.rest call) k)
    (obeys : Obeys refuses c m) (hi : Intake c m c' d)
    (taken : c.note? m = none ∨ d ≠ .rest none) :
    Chronicled refuses c' d k i (deeds ++ deedsOf (c.note? m).toList k i) := by
  have cases_of_mem {deed : Deed} (hmem : deed ∈ deeds ++ deedsOf (c.note? m).toList k i) :
      deed ∈ deeds ∨ c.note? m = some ⟨k, i, deed⟩ :=
    (List.mem_append.mp hmem).imp_right mem_deedsOf_toList.mp
  have mem_of_note {deed : Deed} (noted : c.note? m = some ⟨k, i, deed⟩) :
      deed ∈ deeds ++ deedsOf (c.note? m).toList k i :=
    List.mem_append_right _ (mem_deedsOf_toList.mpr noted)
  have rest {deed : Deed} (noted : c.note? m = some ⟨k, i, deed⟩) : d ≠ .rest none :=
    taken.resolve_left (by simp [noted])
  constructor
  · intro hran
    rcases cases_of_mem hran with hold | hnew
    · obtain ⟨task, used, hrefuses⟩ := h.ran hold
      exact ⟨task, hi.isUsed used, hrefuses⟩
    · cases noted_of_note? hnew with
      | @run task _ _ pending =>
          cases hi with
          | void => exact absurd rfl (rest hnew)
          | run => exact ⟨task, pending.isUsed_useTask, obeys⟩
  · intro hdropped
    rcases cases_of_mem hdropped with hold | hnew
    · obtain ⟨task, used⟩ := h.dropped hold
      exact ⟨task, hi.isUsed used⟩
    · cases noted_of_note? hnew with
      | @discard task _ _ pending =>
          cases hi with
          | void => exact absurd rfl (rest hnew)
          | discard => exact ⟨task, pending.isUsed_useTask⟩
  · intro hrefused
    rcases cases_of_mem hrefused with hold | hnew
    · obtain ⟨task, htask, hrefuses, hgone⟩ := h.refused hold
      exact ⟨task, hi.extends.isTaskOf htask, hrefuses, mt hi.mem_stack_of_mem hgone⟩
    · cases noted_of_note? hnew with
      | @refused task e _ stack top found =>
          have htask : c.IsTaskOf task e.phase e.slot := ⟨e, found, rfl, rfl⟩
          cases hi with
          | void => exact absurd rfl (rest hnew)
          | refused top' =>
              obtain ⟨-, rfl⟩ := List.cons.inj (top.symm.trans top')
              exact ⟨task, htask, obeys _ _ top, looped.not_mem_of_top top htask⟩
  · intro task htask
    have hold := hi.noNewWork.tasks htask
    rcases h.replied hold with under | accepted | refused
    · rcases hi.submitting_cases under hold with hunder | hnew | hnew
      · exact .inl hunder
      · exact .inr (.inl (mem_of_note hnew))
      · exact .inr (.inr (mem_of_note hnew))
    · exact .inr (.inl (List.mem_append_left _ accepted))
    · exact .inr (.inr (List.mem_append_left _ refused))
  · intro hpursued
    rcases hpursued.of_intake hi with hold | hnew
    · exact List.mem_append_left _ (h.pursued hold)
    · exact mem_of_note hnew

theorem reorder {stack : List Frame} (h : Chronicled refuses c (.rest call) k i deeds)
    (perm : stack.Perm c.stack) : Chronicled refuses { c with stack } (.rest call) k i deeds where
  ran := h.ran
  dropped := h.dropped
  refused hrefused := by
    obtain ⟨task, htask, hrefuses, hgone⟩ := h.refused hrefused
    exact ⟨task, htask, hrefuses, mt perm.mem_iff.mp hgone⟩
  replied htask := (h.replied htask).imp_left perm.mem_iff.mpr
  pursued hpursued := by
    cases hpursued with
    | duty pursues => exact h.pursued (.duty pursues)
    | resolver under hat => exact h.pursued (.resolver (perm.mem_iff.mp under) hat)
    | probe found hat => exact h.pursued (.probe found hat)

end Chronicled

/-- A run with an executor that runs no task that it refuses, and the deeds in it. -/
inductive Told (refuses : Nat → Prop) (policy : OrderingPolicy) : List Note → Coordinator → Prop where
  | nil : Told refuses policy [] { policy }
  | move {history : List Note} {c : Coordinator} {m : Move} (told : Told refuses policy history c)
      (obeys : Obeys refuses c m) :
      Told refuses policy (history ++ (c.note? m).toList) (c.step m).coordinator
  | reorder {history : List Note} {c : Coordinator} {stack : List Frame}
      (told : Told refuses policy history c) (perm : stack.Perm c.stack) :
      Told refuses policy history { c with stack }

theorem Told.exists_run (told : Told refuses policy history c) :
    ∃ moves, Run (Obeys refuses) { policy } moves c := by
  induction told with
  | nil => exact ⟨[], .nil⟩
  | move _ obeys ih =>
      obtain ⟨moves, run⟩ := ih
      exact ⟨_, run.move obeys⟩
  | reorder _ perm ih =>
      obtain ⟨moves, run⟩ := ih
      exact ⟨moves, run.reorder perm⟩

theorem Run.exists_told (run : Run (Obeys refuses) { policy } moves c) :
    ∃ history, Told refuses policy history c := by
  induction run with
  | nil => exact ⟨[], .nil⟩
  | move _ permitted ih =>
      obtain ⟨history, told⟩ := ih
      exact ⟨_, told.move permitted⟩
  | reorder _ perm ih =>
      obtain ⟨history, told⟩ := ih
      exact ⟨history, told.reorder perm⟩

namespace Told

theorem sound (told : Told refuses policy history c) : ∃ call, c.Sound (.rest call) := by
  obtain ⟨moves, run⟩ := told.exists_run
  exact Reachable.sound (run.mono fun _ => trivial)

theorem looped (told : Told refuses policy history c) (call : Option Frame) (k : Nat) :
    Looped c (.rest call) k := by
  obtain ⟨moves, run⟩ := told.exists_run
  obtain ⟨call', looped⟩ := run.looped
  exact (looped k).carry (.refl _) id

theorem chronicled (told : Told refuses policy history c) : ∃ call, c.Sound (.rest call) ∧
    ∀ k i, Chronicled refuses c (.rest call) k i (deedsOf history k i) := by
  induction told with
  | nil =>
      refine ⟨none, sound_initial policy, fun k i => ?_⟩
      constructor
      · simp [deedsOf]
      · simp [deedsOf]
      · simp [deedsOf]
      · rintro task ⟨e, he, -⟩
        simp at he
      · rintro (pursues | ⟨under, -⟩ | ⟨found, -⟩)
        · exact pursues.elim
        · simp at under
        · simp at found
  | @move history c m told obeys ih =>
      obtain ⟨call, sound, chronicled⟩ := ih
      refine ⟨_, sound.step m, fun k i => ?_⟩
      rw [deedsOf_append]
      exact sound.noted_induction (fun _ h hp => h.progress hp)
        ((chronicled k i).intake (told.looped call k) obeys)
  | reorder _ perm ih =>
      obtain ⟨call, sound, chronicled⟩ := ih
      exact ⟨call, sound.reorder perm, fun k i => (chronicled k i).reorder perm⟩

end Told

theorem Fails.pursued (h : Fails c m a) : Pursued c d a.phase a.slot := by
  cases h with
  | unreachable top => exact .resolver (top ▸ List.mem_cons_self) ⟨rfl, rfl⟩
  | unsent _ found => exact .probe found ⟨rfl, rfl⟩
  | answer unresolved | abandon unresolved =>
      obtain ⟨p, found, -, rfl⟩ := unresolved
      exact .probe found ⟨rfl, rfl⟩

theorem Fails.isReached (h : Fails c m a) (timely : c.Timely d) : c.IsReached a := by
  cases h with
  | unreachable top => exact timely.resolver (top ▸ List.mem_cons_self)
  | unsent _ found => exact timely.probes found
  | answer unresolved | abandon unresolved =>
      obtain ⟨p, found, -, rfl⟩ := unresolved
      exact timely.probes found

theorem IsReached.le (h : c.IsReached a) {current : Nat}
    (cursor : (c.account a.phase a.slot).slot.cursor = .copy current) : a.copy ≤ current := by
  rcases h with hcurrent | ⟨s, hs, past⟩
  · obtain ⟨s, hs, hcopy⟩ := isCurrent_iff_slot?.mp hcurrent
    rw [account_of_slot? hs] at cursor
    exact Nat.le_of_eq (Cursor.copy.inj (hcopy.symm.trans cursor))
  · rw [account_of_slot? hs] at cursor
    simp only at cursor
    rw [cursor] at past
    exact Nat.le_of_lt past

theorem Noted.exists_target? (h : Noted c m note) (sound : c.Sound (.rest call)) :
    ∃ target, c.target? note.phase note.slot = some target := by
  have probe {q : Nat} {p : Probe} (found : c.probes[q]? = some p) :
      ∃ target, c.target? p.attempt.phase p.attempt.slot = some target := by
    obtain ⟨-, target, node, -, hdest, -⟩ := sound.grounded.probes found
    exact ⟨target, (exists_target?_of_destination? hdest).1⟩
  cases h with
  | run pending | discard pending => exact sound.grounded.tasks pending
  | accepted _ found | refused _ found => exact sound.grounded.tasks found
  | answered unresolved =>
      obtain ⟨p, found, -, rfl⟩ := unresolved
      exact probe found
  | @failed _ a fails =>
      cases fails with
      | unreachable top =>
          obtain ⟨target, node, hdest⟩ : Frame.Supported c (.connecting a) :=
            sound.grounded.frames (top ▸ List.mem_cons_self)
          exact ⟨target, (exists_target?_of_destination? hdest).1⟩
      | unsent _ found => exact probe found
      | answer unresolved | abandon unresolved =>
          obtain ⟨p, found, -, rfl⟩ := unresolved
          exact probe found

namespace Told

/-- What is done to a shard makes sense after what was done to it before. -/
theorem follows (told : Told refuses policy history c) (obeys : Obeys refuses c m)
    (noted : Noted c m note) : note.deed.Follows (deedsOf history note.phase note.slot)
      (c.account note.phase note.slot).slot := by
  obtain ⟨call, sound, chronicled⟩ := told.chronicled
  obtain ⟨moves, run⟩ := told.exists_run
  obtain ⟨_, -, timely⟩ := Reachable.timely (run.mono fun _ => trivial)
  have unique {t t' k i : Nat} : c.IsTaskOf t k i → c.IsTaskOf t' k i → t = t' :=
    (told.looped none k).unique
  have unused {t k i : Nat} (pending : c.IsPending t k i) : ∀ task, ¬ c.IsUsed task k i := by
    rintro task used
    obtain rfl := unique used.isTaskOf pending.isTaskOf
    exact used.not_isPending pending
  cases noted with
  | run pending =>
      refine ⟨fun ran => ?_, fun refused => ?_, fun dropped => ?_⟩
      · obtain ⟨task, used, -⟩ := (chronicled _ _).ran ran
        exact unused pending task used
      · obtain ⟨task, htask, hrefuses, -⟩ := (chronicled _ _).refused refused
        obtain rfl := unique htask pending.isTaskOf
        exact obeys hrefuses
      · obtain ⟨task, used⟩ := (chronicled _ _).dropped dropped
        exact unused pending task used
  | discard pending =>
      refine ⟨fun dropped => ?_, fun ran => ?_⟩
      · obtain ⟨task, used⟩ := (chronicled _ _).dropped dropped
        exact unused pending task used
      · obtain ⟨task, used, -⟩ := (chronicled _ _).ran ran
        exact unused pending task used
  | accepted => trivial
  | @refused t e error stack top found =>
      have htask : c.IsTaskOf t e.phase e.slot := ⟨e, found, rfl, rfl⟩
      refine ⟨fun refused => ?_, fun ran => ?_⟩
      · obtain ⟨task, hother, -, hgone⟩ := (chronicled _ _).refused refused
        obtain rfl := unique hother htask
        exact hgone (top ▸ List.mem_cons_self)
      · obtain ⟨task, used, hrefuses⟩ := (chronicled _ _).ran ran
        obtain rfl := unique used.isTaskOf htask
        exact hrefuses (obeys _ _ top)
  | answered unresolved =>
      obtain ⟨p, found, -, rfl⟩ := unresolved
      exact ⟨(chronicled _ _).pursued (.probe found ⟨rfl, rfl⟩), fun _ => (timely.probes found).le⟩
  | failed fails => exact ⟨(chronicled _ _).pursued fails.pursued, fun _ => (fails.isReached timely).le⟩

theorem fresh (told : Told refuses policy history c) (missing : c.target? k i = none) :
    deedsOf history k i = [] ∧ c.account k i = {} := by
  induction told with
  | nil => exact ⟨rfl, rfl⟩
  | @move history c m told obeys ih =>
      obtain ⟨call, sound⟩ := told.sound
      have hbefore : c.target? k i = none := by
        refine Option.eq_none_iff_forall_ne_some.mpr fun target listed => ?_
        simp [(sound.extends_step m).target? listed] at missing
      obtain ⟨hdeeds, haccount⟩ := ih hbefore
      rcases deedsOf_note?_cases c m k i with hnone | ⟨deed, hnote, -⟩
      · rw [deedsOf_append, hdeeds, hnone, sound.account_step, hnone, haccount]
        exact ⟨rfl, rfl⟩
      · obtain ⟨target, listed⟩ := (noted_of_note? hnote).exists_target? sound
        simp [hbefore] at listed
  | reorder _ _ ih => exact ih missing

/-- What was done to a shard tells how it stands. -/
theorem standing (told : Told refuses policy history c) (k i : Nat) :
    Standing (c.copies k i) (deedsOf history k i) (c.account k i) := by
  induction told with
  | nil => exact .start
  | @move history c m told obeys ih =>
      obtain ⟨call, sound⟩ := told.sound
      rw [deedsOf_append, sound.account_step]
      cases listed : c.target? k i with
      | none =>
          obtain ⟨hdeeds, haccount⟩ := told.fresh listed
          rcases deedsOf_note?_cases c m k i with hnone | ⟨deed, hnote, -⟩
          · rw [hdeeds, hnone, haccount]
            exact .start
          · obtain ⟨target, hlisted⟩ := (noted_of_note? hnote).exists_target? sound
            simp [listed] at hlisted
      | some target =>
          rw [(sound.extends_step m).copies_eq listed]
          rcases deedsOf_note?_cases c m k i with hnone | ⟨deed, hnote, hone⟩
          · rw [hnone, List.append_nil]
            exact ih
          · rw [hone]
            exact ih.after (told.follows obeys (noted_of_note? hnote))
  | reorder _ _ ih => exact ih

end Told
end Coordinator
end Prefilter
