import Mathlib.Data.List.Basic
import Prefilter.Proofs.Phase.Journal
import Prefilter.Proofs.Phase.Obligation

/-!
Custody of a shard. The next attempt at a shard is in one pair of hands at most: the loop that hands
over the tasks will come to the shard, or its task is with the executor, or a copy of it is being
looked up. Whoever has it is about to try the very copy that the shard stands at, and the copies before
that are the ones that were tried.
-/

namespace Prefilter

/-- The attempt at a shard that follows once the next phase returns, by its copy. -/
def Caller.held (slot : Nat) : Caller → Option Nat
  | .start first => if first ≤ slot then some 0 else none
  | .entry | .exhausted .. => none

/-- The attempt at a shard that is in the hands of a call, by its copy. -/
def Frame.held (c : Coordinator) (phase slot : Nat) : Frame → Option Nat
  | .submitting task =>
    c.tasks[task]?.bind fun d =>
      if d.phase = phase then (Caller.start (d.slot + 1)).held slot else none
  | .connecting a => if a.At phase slot then some a.copy else none
  | .sending _ => none
  | .delivering other caller => if other = phase then caller.held slot else none

namespace Duty

/-- The attempt at a shard that is part of what is left to do, by its copy. -/
def held (phase slot : Nat) : Duty → Option Nat
  | rest _ | fail .. => none
  | submit other first => if other = phase then (Caller.start first).held slot else none
  | complete other caller => if other = phase then caller.held slot else none
  | finish a _ caller => if a.phase = phase then caller.held slot else none
  | dispatch a | send a _ => if a.At phase slot then some a.copy else none

end Duty

theorem Caller.held_duty (phase other slot : Nat) (caller : Caller) :
    (caller.duty phase).held other slot = if phase = other then caller.held slot else none := by
  cases caller <;> simp [duty, Duty.held, held]

namespace Coordinator

variable {c c' : Coordinator} {d d' : Duty} {m : Move} {k i j : Nat} {a : Attempt}
  {call : Option Frame} {refuses : Nat → Prop} {policy : OrderingPolicy} {moves : List Move}

/-- What an executor does that runs no task that it refuses. -/
def Obeys (refuses : Nat → Prop) (c : Coordinator) : Move → Prop
  | .run task => ¬ refuses task
  | .refused _ => ∀ task stack, c.stack = .submitting task :: stack → refuses task
  | _ => True

/-- The attempts at a shard that are in somebody's hands, other than the executor's. -/
def held (c : Coordinator) (d : Duty) (phase slot : Nat) : List Nat :=
  (d.held phase slot).toList ++ c.stack.filterMap (Frame.held c phase slot)

def IsTaskOf (c : Coordinator) (task phase slot : Nat) : Prop :=
  ∃ d, c.tasks[task]? = some d ∧ d.phase = phase ∧ d.slot = slot

/-- The executor has the task of a shard, or had it and refused it. -/
def Keeps (refuses : Nat → Prop) (c : Coordinator) (task phase slot : Nat) : Prop :=
  c.IsPending task phase slot ∨ (c.IsTaskOf task phase slot ∧ refuses task)

/-- The shard stands at a copy, and just the ones before it have been tried. -/
structure AtNext (c : Coordinator) (phase slot copy : Nat) : Prop where
  tried : (c.tried phase slot).length = copy
  slot : ∀ {s : Slot}, c.slot? phase slot = some s → s = ⟨.copy copy, none⟩

/-- The next attempt at a shard is in nobody's hands. -/
structure Unheld (refuses : Nat → Prop) (c : Coordinator) (d : Duty) (phase slot : Nat) : Prop where
  held : c.held d phase slot = []
  pending : ∀ {t : Nat}, c.IsPending t phase slot → refuses t

/-- An attempt that has failed was tried, and so was one that has ended, unless nobody can try its
shard any more. -/
def Settles (refuses : Nat → Prop) (c : Coordinator) (phase slot : Nat) : Duty → Prop
  | .fail a _ => a.At phase slot → a.copy < (c.tried phase slot).length
  | .finish a outcome caller => a.At phase slot → a.copy < (c.tried phase slot).length ∨
      Unheld refuses c (.finish a outcome caller) phase slot
  | _ => True

/-- The next attempt at a shard is in one pair of hands at most. -/
structure Custody (refuses : Nat → Prop) (c : Coordinator) (d : Duty) (phase slot : Nat) :
    Prop where
  tried_eq : c.tried phase slot = List.range (c.tried phase slot).length
  fresh : c.slot? phase slot = none → c.tried phase slot = []
  tried_le : ∀ {copy : Nat}, c.slot? phase slot = some ⟨.copy copy, none⟩ →
    (c.tried phase slot).length ≤ copy + 1
  sole : (c.held d phase slot).length ≤ 1
  next : ∀ {copy : Nat}, copy ∈ c.held d phase slot → c.AtNext phase slot copy
  sole_task : ∀ {t t' : Nat}, c.Keeps refuses t phase slot → c.Keeps refuses t' phase slot → t = t'
  held_eq_nil : ∀ {t : Nat}, c.Keeps refuses t phase slot → c.held d phase slot = []
  pending : ∀ {t : Nat}, c.IsPending t phase slot → ¬ refuses t → c.AtNext phase slot 0
  refused : ∀ {t : Nat}, c.IsTaskOf t phase slot → refuses t → c.tried phase slot = []
  probes : ∀ {q : Nat} {p : Probe}, c.probes[q]? = some p → p.attempt.At phase slot →
    p.attempt.copy < (c.tried phase slot).length
  settles : Settles refuses c phase slot d

theorem settles_duty {phase : Nat} (caller : Caller) :
    Settles refuses c k i (caller.duty phase) := by
  cases caller <;> trivial

theorem IsPending.isTaskOf {t : Nat} (h : c.IsPending t k i) : c.IsTaskOf t k i := ⟨_, h, rfl, rfl⟩

/-- The tasks and probes of a shard are ones that were there before. -/
structure NoNewWork (c c' : Coordinator) (phase slot : Nat) : Prop where
  pending : ∀ {t : Nat}, c'.IsPending t phase slot → c.IsPending t phase slot
  tasks : ∀ {t : Nat}, c'.IsTaskOf t phase slot → c.IsTaskOf t phase slot
  probes : ∀ {q : Nat} {p : Probe}, c'.probes[q]? = some p → p.attempt.At phase slot →
    ∃ old, c.probes[q]? = some old ∧ old.attempt = p.attempt

namespace NoNewWork

theorem of_eq (tasks : c'.tasks = c.tasks) (probes : c'.probes = c.probes) :
    NoNewWork c c' k i where
  pending h := by rwa [IsPending, tasks] at h
  tasks h := by rwa [IsTaskOf, tasks] at h
  probes hq _ := ⟨_, probes ▸ hq, rfl⟩

theorem keeps {t : Nat} (h : NoNewWork c c' k i) (ht : c'.Keeps refuses t k i) :
    c.Keeps refuses t k i := by
  rcases ht with hpending | ⟨htask, hrefuses⟩
  · exact .inl (h.pending hpending)
  · exact .inr ⟨h.tasks htask, hrefuses⟩

theorem useTask {task : Nat} (tasks : c'.tasks = (c.useTask task).tasks)
    (probes : c'.probes = c.probes) : NoNewWork c c' k i where
  pending h := by
    rw [IsPending, tasks] at h
    obtain ⟨old, hold, heq⟩ := getElem?_modify_eq_some.mp h
    split at heq
    · simp at heq
    · exact hold.trans (congrArg some heq)
  tasks h := by
    obtain ⟨e, he, hphase, hslot⟩ := h
    rw [tasks] at he
    obtain ⟨old, hold, rfl⟩ := getElem?_modify_eq_some.mp he
    refine ⟨old, hold, ?_, ?_⟩
    · rw [← hphase]
      split <;> rfl
    · rw [← hslot]
      split <;> rfl
  probes hq _ := ⟨_, probes ▸ hq, rfl⟩

theorem useListener {probe : Nat} (tasks : c'.tasks = c.tasks)
    (probes : c'.probes = (c.useListener probe).probes) : NoNewWork c c' k i where
  pending h := by rwa [IsPending, tasks] at h
  tasks h := by rwa [IsTaskOf, tasks] at h
  probes hq _ := by
    rw [probes] at hq
    obtain ⟨old, hold, rfl⟩ := getElem?_modify_eq_some.mp hq
    exact ⟨old, hold, by split <;> rfl⟩

end NoNewWork

theorem AtNext.of_same {copy : Nat} (h : c.AtNext k i copy) (tried : c'.tried k i = c.tried k i)
    (slot : c'.slot? k i = c.slot? k i) : c'.AtNext k i copy where
  tried := by rw [tried, h.tried]
  slot hs := h.slot (slot ▸ hs)

namespace Custody

/-- Whoever has the next attempt still has it, has handed it on, or has let go of it. -/
theorem carry (h : Custody refuses c d k i) (tried : c'.tried k i = c.tried k i)
    (slot : c'.slot? k i = c.slot? k i) (work : NoNewWork c c' k i)
    (held : (c'.held d' k i).Sublist (c.held d k i)) (settles : Settles refuses c' k i d') :
    Custody refuses c' d' k i where
  tried_eq := by rw [tried, ← h.tried_eq]
  fresh hs := by rw [tried, h.fresh (slot ▸ hs)]
  tried_le hs := by
    rw [tried]
    exact h.tried_le (slot ▸ hs)
  sole := Nat.le_trans held.length_le h.sole
  next hcopy := (h.next (held.subset hcopy)).of_same tried slot
  sole_task ht ht' := h.sole_task (work.keeps ht) (work.keeps ht')
  held_eq_nil ht := List.sublist_nil.mp (h.held_eq_nil (work.keeps ht) ▸ held)
  pending ht hrefuses := (h.pending (work.pending ht) hrefuses).of_same tried slot
  refused ht hrefuses := by rw [tried, h.refused (work.tasks ht) hrefuses]
  probes hq hat := by
    obtain ⟨old, hold, hattempt⟩ := work.probes hq hat
    rw [tried, ← hattempt]
    exact h.probes hold (hattempt ▸ hat)
  settles := settles

theorem release (h : Custody refuses c d k i) (tried : c'.tried k i = c.tried k i) {s : Slot}
    (slot : c'.slot? k i = some s)
    (ahead : ∀ {copy : Nat}, s.cursor = .copy copy → (c.tried k i).length ≤ copy + 1)
    (work : NoNewWork c c' k i) (unheld : Unheld refuses c d k i)
    (held : (c'.held d' k i).Sublist (c.held d k i)) (settles : Settles refuses c' k i d') :
    Custody refuses c' d' k i where
  tried_eq := by rw [tried, ← h.tried_eq]
  fresh hs := by simp [slot] at hs
  tried_le hs := by
    obtain rfl := Option.some.inj (slot.symm.trans hs)
    rw [tried]
    exact ahead rfl
  sole := Nat.le_trans held.length_le h.sole
  next hcopy := by
    have := held.subset hcopy
    simp [unheld.held] at this
  sole_task ht ht' := h.sole_task (work.keeps ht) (work.keeps ht')
  held_eq_nil _ := List.sublist_nil.mp (unheld.held ▸ held)
  pending ht hrefuses := absurd (unheld.pending (work.pending ht)) hrefuses
  refused ht hrefuses := by rw [tried, h.refused (work.tasks ht) hrefuses]
  probes hq hat := by
    obtain ⟨old, hold, hattempt⟩ := work.probes hq hat
    rw [tried, ← hattempt]
    exact h.probes hold (hattempt ▸ hat)
  settles := settles

theorem eq_nil_of_held (h : Custody refuses c d k i) {copy : Nat} {copies : List Nat}
    (held : c.held d k i = copy :: copies) : copies = [] := by
  have hsole := h.sole
  rw [held, List.length_cons] at hsole
  exact List.eq_nil_of_length_eq_zero (by omega)

theorem not_keeps_of_held (h : Custody refuses c d k i) {copy t : Nat} {copies : List Nat}
    (held : c.held d k i = copy :: copies) : ¬ c.Keeps refuses t k i := by
  intro ht
  have hnil := h.held_eq_nil ht
  simp [held] at hnil

theorem attempt (h : Custody refuses c d k i) {copy : Nat}
    (tried : c'.tried k i = c.tried k i ++ [copy]) {s : Slot} (found : c.slot? k i = some s)
    (slot : c'.slot? k i = c.slot? k i) (tasks : c'.tasks = c.tasks)
    (probes : ∀ {q : Nat} {p : Probe}, c'.probes[q]? = some p → p.attempt.At k i →
      c.probes[q]? = some p ∨ p.attempt.copy = copy)
    (held : c.held d k i = copy :: c'.held d' k i) (settles : Settles refuses c' k i d') :
    Custody refuses c' d' k i := by
  have hnext := h.next (held ▸ List.mem_cons_self)
  have hlength : (c'.tried k i).length = copy + 1 := by simp [tried, hnext.tried]
  have hnil := h.eq_nil_of_held held
  have hnone {t : Nat} : ¬ c'.Keeps refuses t k i := by
    rw [Keeps, IsPending, IsTaskOf, tasks]
    exact h.not_keeps_of_held held
  constructor
  · rw [hlength, tried, h.tried_eq, hnext.tried, List.range_succ]
  · intro hs
    simp [slot, found] at hs
  · intro copy' hs
    rw [slot] at hs
    have := hnext.slot hs
    simp at this
    omega
  · simp [hnil]
  · simp [hnil]
  · intro t t' ht
    exact absurd ht hnone
  · intro t ht
    exact absurd ht hnone
  · intro t ht
    exact absurd (.inl ht) hnone
  · intro t ht hrefuses
    exact absurd (.inr ⟨ht, hrefuses⟩) hnone
  · intro q p hq hat
    rw [hlength]
    rcases probes hq hat with hq | hcopy
    · have := h.probes hq hat
      rw [hnext.tried] at this
      omega
    · omega
  · exact settles

theorem unheld_of_tried (h : Custody refuses c d k i) {copy : Nat}
    (slot : c.slot? k i = some ⟨.copy copy, none⟩) (tried : copy < (c.tried k i).length) :
    Unheld refuses c d k i := by
  have hnot {copy' : Nat} (hnext : c.AtNext k i copy') : False := by
    have hcopy := hnext.slot slot
    have htried := hnext.tried
    simp at hcopy
    omega
  constructor
  · exact List.eq_nil_iff_forall_not_mem.mpr fun _ hmem => hnot (h.next hmem)
  · intro t ht
    by_contra hrefuses
    exact hnot (h.pending ht hrefuses)

end Custody

theorem filterMap_held_of_extends (grounded : c.Grounded) (e : Extends c c') (k i : Nat) :
    c.stack.filterMap (Frame.held c' k i) = c.stack.filterMap (Frame.held c k i) := by
  refine List.filterMap_congr fun f hf => ?_
  cases f with
  | submitting task =>
      obtain ⟨d, hd⟩ : Frame.Supported c (.submitting task) := grounded.frames hf
      obtain ⟨d', hd', hphase, hslot⟩ := e.tasks hd
      simp [Frame.held, hd, hd', hphase, hslot]
  | _ => rfl

theorem Progress.noNewWork (hp : Progress c d c' d') (unsubmitted : d ≠ .submit k i)
    (unsent : ∀ {a : Attempt} {connection : Connection}, d = .send a connection → ¬ a.At k i) :
    NoNewWork c c' k i := by
  cases hp with
  | @submit phase slot =>
      have hne (h : ({ phase, slot } : Dispatch).phase = k ∧ ({ phase, slot } : Dispatch).slot = i) :
          False := unsubmitted (by rw [← h.1, ← h.2])
      constructor
      · intro t ht
        rw [IsPending, push, addTask, Array.getElem?_push] at ht
        split at ht
        · obtain h := Option.some.inj ht
          simp at h
          exact (hne h).elim
        · exact ht
      · rintro t ⟨e, he, hphase, hslot⟩
        rw [push, addTask, Array.getElem?_push] at he
        split at he
        · obtain rfl := Option.some.inj he
          exact (hne ⟨hphase, hslot⟩).elim
        · exact ⟨e, he, hphase, hslot⟩
      · intro q p hq _
        exact ⟨p, hq, rfl⟩
  | @send a connection p target node phase found =>
      refine ⟨id, id, fun {q p} hq hat => ?_⟩
      rw [push, addProbe, Array.getElem?_push] at hq
      split at hq
      · obtain rfl := Option.some.inj hq
        exact absurd hat (unsent rfl)
      · exact ⟨p, hq, rfl⟩
  | _ => exact .of_eq rfl rfl

theorem Grounded.held_of_stay (grounded : c.Grounded) (e : Extends c c')
    (stack : c'.stack = c.stack) :
    c'.held d' k i = (d'.held k i).toList ++ c.stack.filterMap (Frame.held c k i) := by
  rw [held, stack, filterMap_held_of_extends grounded e]

theorem Grounded.held_of_call {f : Frame} (grounded : c.Grounded) (e : Extends c c')
    (stack : c'.stack = f :: c.stack) :
    c'.held (.rest call) k i =
      (f.held c' k i).toList ++ c.stack.filterMap (Frame.held c k i) := by
  rw [held, stack, List.filterMap_cons, filterMap_held_of_extends grounded e]
  cases f.held c' k i <;> rfl

theorem toList_held_start_succ_sublist (first slot : Nat) :
    ((Caller.start (first + 1)).held slot).toList.Sublist ((Caller.start first).held slot).toList := by
  simp only [Caller.held]
  split
  · rename_i hle
    rw [if_pos (Nat.le_of_succ_le hle)]
  · exact List.nil_sublist _

/-- An act hands the next attempt on, or lets go of it, unless it makes the next copy the one. -/
theorem Progress.held_sublist (hp : Progress c d c' d') (sound : c.Sound d)
    (unadvanced : ∀ {a : Attempt} {error : ProbeError}, d = .fail a error → d' = .dispatch a.next →
      ¬ a.At k i) :
    (c'.held d' k i).Sublist (c.held d k i) := by
  have stay (stack : c'.stack = c.stack) : c'.held d' k i =
      (d'.held k i).toList ++ c.stack.filterMap (Frame.held c k i) :=
    sound.grounded.held_of_stay hp.extends stack
  have call {f : Frame} {call : Option Frame} (stack : c'.stack = f :: c.stack) :
      c'.held (.rest call) k i =
        (f.held c' k i).toList ++ c.stack.filterMap (Frame.held c k i) :=
    sound.grounded.held_of_call hp.extends stack
  cases hp with
  | submitLast => exact List.sublist_append_right ..
  | @submit phase slot target found =>
      have hcall : Frame.held ((c.addTask phase slot).push (.submitting c.tasks.size)) k i
          (.submitting c.tasks.size) =
            if phase = k then (Caller.start (slot + 1)).held i else none := by
        simp [Frame.held, push, addTask]
      rw [call rfl, hcall]
      refine List.Sublist.append_right ?_ _
      rw [Duty.held]
      split
      · exact toList_held_start_succ_sublist slot i
      · exact .refl _
  | complete | connect =>
      rw [call rfl]
      exact .refl _
  | supersede =>
      rw [stay rfl, Caller.held_duty]
      exact .refl _
  | record =>
      rw [stay rfl]
      split
      · exact .refl _
      · rw [Caller.held_duty]
        exact .refl _
  | exhaust =>
      rw [stay rfl]
      simp only [Duty.held, Caller.held, ite_self]
      exact List.sublist_append_right ..
  | ignore =>
      rw [stay rfl]
      exact .refl _
  | @advance a error =>
      have hat : ¬ a.At k i := unadvanced rfl rfl
      have hnext : ¬ a.next.At k i := hat
      rw [stay rfl]
      simp only [Duty.held, hnext]
      exact .refl _
  | send =>
      rw [call rfl]
      exact List.sublist_append_right ..

namespace Custody

theorem submit (h : Custody refuses c (.submit k i) k i) (grounded : c.Grounded) :
    Custody refuses ((c.addTask k i).push (.submitting c.tasks.size))
      (.rest (some (.submitting c.tasks.size))) k i := by
  have e : Extends c ((c.addTask k i).push (.submitting c.tasks.size)) :=
    ((Extends.refl c).addTask k i).push _
  have hheld : c.held (.submit k i) k i = 0 :: c.stack.filterMap (Frame.held c k i) := by
    simp [held, Duty.held, Caller.held]
  have hnext := h.next (hheld ▸ List.mem_cons_self)
  have hnil : ((c.addTask k i).push (.submitting c.tasks.size)).held
      (.rest (some (.submitting c.tasks.size))) k i = [] := by
    rw [grounded.held_of_call e rfl, h.eq_nil_of_held hheld, List.append_nil]
    simp [Frame.held, push, addTask, Caller.held]
  have htask {t : Nat} (ht : Keeps refuses ((c.addTask k i).push (.submitting c.tasks.size)) t k i) :
      t = c.tasks.size := by
    by_contra hne
    refine h.not_keeps_of_held hheld (t := t) ?_
    simpa [Keeps, IsPending, IsTaskOf, push, addTask, Array.getElem?_push, hne] using ht
  constructor
  · exact h.tried_eq
  · exact h.fresh
  · exact h.tried_le
  · simp [hnil]
  · simp [hnil]
  · intro t t' ht ht'
    rw [htask ht, htask ht']
  · intro t _
    exact hnil
  · intro t _ _
    exact ⟨hnext.tried, hnext.slot⟩
  · intro t _ _
    exact List.eq_nil_of_length_eq_zero hnext.tried
  · exact h.probes
  · trivial

theorem advance {error : ProbeError} (h : Custody refuses c (.fail a error) k i)
    (tried : c'.tried k i = c.tried k i) (hat : a.At k i)
    (before : c.slot? k i = some ⟨.copy a.copy, none⟩)
    (after : c'.slot? k i = some ⟨.copy (a.copy + 1), none⟩) (work : NoNewWork c c' k i)
    (held : c'.held (.dispatch a.next) k i = (a.copy + 1) :: c.held (.fail a error) k i) :
    Custody refuses c' (.dispatch a.next) k i := by
  have hlt : a.copy < (c.tried k i).length := h.settles hat
  have hlength : (c'.tried k i).length = a.copy + 1 := by
    rw [tried]
    exact Nat.le_antisymm (h.tried_le before) hlt
  have hunheld := h.unheld_of_tried before hlt
  have hone : c'.held (.dispatch a.next) k i = [a.copy + 1] := by rw [held, hunheld.held]
  have hnone {t : Nat} : ¬ c'.Keeps refuses t k i := fun ht => by
    rcases work.keeps ht with hpending | ⟨htask, hrefuses⟩
    · rw [h.refused hpending.isTaskOf (hunheld.pending hpending)] at hlt
      simp at hlt
    · rw [h.refused htask hrefuses] at hlt
      simp at hlt
  constructor
  · rw [tried, ← h.tried_eq]
  · intro hs
    simp [after] at hs
  · intro copy hs
    simp only [after, Option.some.injEq, Slot.mk.injEq, Cursor.copy.injEq] at hs
    omega
  · simp [hone]
  · intro copy hcopy
    simp only [hone, List.mem_singleton] at hcopy
    subst hcopy
    exact ⟨hlength, fun hs => (Option.some.inj (after.symm.trans hs)).symm⟩
  · intro t t' ht
    exact absurd ht hnone
  · intro t ht
    exact absurd ht hnone
  · intro t ht
    exact absurd (.inl ht) hnone
  · intro t ht hrefuses
    exact absurd (.inr ⟨ht, hrefuses⟩) hnone
  · intro q p hq hat
    obtain ⟨old, hold, hattempt⟩ := work.probes hq hat
    rw [tried, ← hattempt]
    exact h.probes hold (hattempt ▸ hat)
  · trivial

theorem progress (h : Custody refuses c d k i) (sound : c.Sound d)
    (hp : Progress c d c' d') : Custody refuses c' d' k i := by
  have handed := hp.held_sublist (k := k) (i := i) sound
  have change := hp.slotChange sound k i
  have tried (quiet : d.Quiet) := (hp.sameJournal quiet).tried k i
  have work := hp.noNewWork (k := k) (i := i)
  cases hp with
  | submitLast => exact h.carry rfl rfl (.of_eq rfl rfl) (handed (by simp)) trivial
  | @submit phase slot target found =>
      by_cases hat : phase = k ∧ slot = i
      · obtain ⟨rfl, rfl⟩ := hat
        exact h.submit sound.grounded
      · exact h.carry rfl rfl (work (by simpa using hat) (by simp)) (handed (by simp)) trivial
  | complete =>
      exact h.carry (tried trivial) slot?_conclude (work (by simp) (by simp)) (handed (by simp))
        trivial
  | supersede =>
      exact h.carry (tried trivial) rfl (work (by simp) (by simp)) (handed (by simp))
        (settles_duty _)
  | @record a outcome caller p s found slot current =>
      have settles : Settles refuses (c.updatePhase a.phase (·.record a.slot outcome)) k i
          (if p.outstanding = 1 then .complete a.phase caller else caller.duty a.phase) := by
        split
        · trivial
        · exact settles_duty _
      have work := work (by simp) (by simp)
      cases change with
      | same eq => exact h.carry rfl eq work (handed (by simp)) settles
      | @recorded b outcome' caller' duty phase slot before after =>
          obtain ⟨rfl, -, -⟩ := Duty.finish.inj duty
          have hunheld : Unheld refuses c (.finish a outcome caller) k i := by
            rcases h.settles ⟨phase, slot⟩ with hlt | hunheld
            · exact h.unheld_of_tried before hlt
            · exact hunheld
          exact h.release rfl after (by simp) work hunheld (handed (by simp)) settles
      | advanced duty => cases duty
  | connect => exact h.carry rfl rfl (work (by simp) (by simp)) (handed (by simp)) trivial
  | @exhaust a target found beyond =>
      have work := work (by simp) (by simp)
      refine h.carry (tried trivial) rfl work (handed (by simp)) fun hat => .inr ?_
      have hheld : c.held (.dispatch a) k i = a.copy :: c.stack.filterMap (Frame.held c k i) := by
        simp [Coordinator.held, Duty.held, hat]
      constructor
      · rw [sound.grounded.held_of_stay ((Extends.refl c).log _) rfl, h.eq_nil_of_held hheld]
        simp [Duty.held, Caller.held]
      · intro t ht
        exact absurd (.inl (work.pending ht)) (h.not_keeps_of_held hheld)
  | ignore => exact h.carry (tried trivial) rfl (work (by simp) (by simp)) (handed (by simp)) trivial
  | @advance a error target node p s found phase slot current =>
      have work := work (by simp) (by simp)
      by_cases hat : a.At k i
      · have hs : (c.log (.attemptFailed a target node error)).slot? k i = some s :=
          slot?_eq_some.mpr ⟨p, hat.1 ▸ phase, hat.2 ▸ slot⟩
        obtain rfl := sound.slot?_eq hs current
        refine h.advance (tried trivial) hat hs ?_ work ?_
        · refine slot?_advance.trans ((if_pos hat).trans ?_)
          rw [hs]
          rfl
        · have hnext : a.next.At k i := hat
          simp only [Coordinator.held, Duty.held, if_pos hnext]
          rfl
      · have handed := handed fun hd _ => by
          obtain ⟨rfl, -⟩ := Duty.fail.inj hd
          exact hat
        exact h.carry (tried trivial) (slot?_advance.trans (if_neg hat)) work handed trivial
  | @send a connection p target node phase found =>
      have hlookups : (((((c.emit (.resolved a target.cluster node true)).emit
          (.sent c.probes.size a connection (p.probeRequest target node))).addProbe
          { attempt := a, connection, request := p.probeRequest target node }).push
          (.sending c.probes.size))).lookups = c.lookups ++ [⟨a, target.cluster, node, true⟩] :=
        lookups_emit_sent.trans lookups_emit_resolved
      have htried := tried_of_lookups_append hlookups k i
      by_cases hat : a.At k i
      · obtain ⟨s, hs⟩ := sound.exists_slot? (exists_target?_of_destination? found).1
        rw [if_pos hat] at htried
        refine h.attempt htried (hat.1 ▸ hat.2 ▸ hs) rfl rfl (fun {q r} hq _ => ?_) ?_ trivial
        · rw [push, addProbe, Array.getElem?_push] at hq
          split at hq
          · obtain rfl := Option.some.inj hq
            exact .inr rfl
          · exact .inl hq
        · simp only [Coordinator.held, Duty.held, if_pos hat]
          rfl
      · rw [if_neg hat] at htried
        have work := work (by simp) fun hd => by
          obtain ⟨rfl, -⟩ := Duty.send.inj hd
          exact hat
        exact h.carry htried rfl work (handed (by simp)) trivial

end Custody

theorem Intake.noNewWork (hi : Intake c m c' d) : NoNewWork c c' k i := by
  cases hi with
  | run | discard => exact .useTask rfl rfl
  | answer | answerError | abandon => exact .useListener rfl rfl
  | _ => exact .of_eq rfl rfl

theorem held_of_top {f : Frame} {stack : List Frame} (top : c.stack = f :: stack) :
    c.held (.rest call) k i = (f.held c k i).toList ++ stack.filterMap (Frame.held c k i) := by
  rw [held, top, List.filterMap_cons]
  cases f.held c k i <;> rfl

/-- A move that is taken up goes on with the next attempt, or leaves it where it is, unless it runs the
task of the shard or starts its phase. -/
theorem Intake.held_sublist (hi : Intake c m c' d) (grounded : c.Grounded)
    (unrun : ∀ {a : Attempt}, d = .dispatch a → ¬ a.At k i)
    (unstarted : ∀ {targets : List ShardTarget} {request : SearchRequest},
      m = .start targets request → k ≠ c.phases.size) :
    (c'.held d k i).Sublist (c.held (.rest call) k i) := by
  have stay (stack : c'.stack = c.stack) : c'.held d k i =
      (d.held k i).toList ++ c.stack.filterMap (Frame.held c k i) :=
    grounded.held_of_stay hi.extends stack
  have top {f : Frame} {stack : List Frame} (top : c.stack = f :: stack) :
      c.held (.rest call) k i = (f.held c k i).toList ++ stack.filterMap (Frame.held c k i) :=
    held_of_top top
  cases hi with
  | start =>
      rw [stay rfl]
      split
      · simp only [Duty.held, Caller.held, ite_self]
        exact .refl _
      · simp only [Duty.held, if_neg (Ne.symm (unstarted rfl))]
        exact .refl _
  | run =>
      rw [stay rfl]
      simp only [Duty.held, if_neg (unrun rfl)]
      exact .refl _
  | discard | answer =>
      rw [stay rfl]
      simp only [Duty.held, Caller.held, ite_self]
      exact .refl _
  | void | reject | answerError | abandon =>
      rw [stay rfl]
      exact .refl _
  | accepted htop found | refused htop found =>
      rw [top htop]
      simp only [Frame.held, found, Option.bind_some]
      exact .refl _
  | connected htop =>
      rw [top htop]
      exact .refl _
  | unreachable htop | unsent htop | sent htop =>
      rw [top htop]
      exact List.sublist_append_right ..
  | @returned phase caller stack htop =>
      rw [top htop, held, Caller.held_duty]
      exact .refl _

theorem Grounded.held_new (grounded : c.Grounded) (slot : Nat) :
    c.stack.filterMap (Frame.held c c.phases.size slot) = [] := by
  refine List.filterMap_eq_nil_iff.mpr fun f hf => ?_
  have hnone {phase : Nat} {p : Phase} (hp : c.phases[phase]? = some p) : phase ≠ c.phases.size :=
    Nat.ne_of_lt (Array.getElem?_eq_some_iff.mp hp).1
  have hsupported := grounded.frames hf
  cases f with
  | submitting task =>
      obtain ⟨d, hd⟩ := hsupported
      obtain ⟨target, htarget⟩ := grounded.tasks hd
      obtain ⟨p, hp, -⟩ := exists_phase_of_target? htarget
      simp [Frame.held, hd, hnone hp]
  | connecting a =>
      obtain ⟨target, node, hdest⟩ := hsupported
      obtain ⟨p, hp, -⟩ := exists_phase_of_target? (exists_target?_of_destination? hdest).1
      simp [Frame.held, Attempt.At, hnone hp]
  | sending probe => rfl
  | delivering phase caller =>
      obtain ⟨p, hp⟩ := hsupported
      simp [Frame.held, hnone hp]

namespace Custody

theorem run {t : Nat} (h : Custody refuses c (.rest call) k i) (grounded : c.Grounded)
    (pending : c.IsPending t k i) (obeys : ¬ refuses t) :
    Custody refuses (c.useTask t) (.dispatch ⟨k, i, 0⟩) k i := by
  have e : Extends c (c.useTask t) := (Extends.refl c).useTask t
  have work : NoNewWork c (c.useTask t) k i := .useTask rfl rfl
  have hnext := h.pending pending obeys
  have hnil : c.stack.filterMap (Frame.held c k i) = [] := h.held_eq_nil (.inl pending)
  have hone : (c.useTask t).held (.dispatch ⟨k, i, 0⟩) k i = [0] := by
    rw [grounded.held_of_stay e rfl, hnil]
    simp [Duty.held, Attempt.At]
  have hnone {t' : Nat} : ¬ (c.useTask t).Keeps refuses t' k i := by
    intro ht
    obtain rfl := h.sole_task (work.keeps ht) (.inl pending)
    rcases ht with ht | ⟨-, ht⟩
    · exact not_isPending_useTask ht
    · exact obeys ht
  constructor
  · exact h.tried_eq
  · exact h.fresh
  · exact h.tried_le
  · simp [hone]
  · intro copy hcopy
    simp only [hone, List.mem_singleton] at hcopy
    subst hcopy
    exact ⟨hnext.tried, hnext.slot⟩
  · intro t₁ t₂ ht
    exact absurd ht hnone
  · intro t₁ ht
    exact absurd ht hnone
  · intro t₁ ht
    exact absurd (.inl ht) hnone
  · intro t₁ ht hrefuses
    exact absurd (.inr ⟨ht, hrefuses⟩) hnone
  · exact h.probes
  · trivial

theorem start {targets : List ShardTarget} {request : SearchRequest} {ns : List Notice}
    (h : Custody refuses c (.rest call) c.phases.size i) (grounded : c.Grounded) :
    Custody refuses ((c.logAll ns).openPhase targets request)
      (if targets.isEmpty then .complete c.phases.size .entry else .submit c.phases.size 0)
      c.phases.size i := by
  have e : Extends c ((c.logAll ns).openPhase targets request) :=
    ((Extends.refl c).logAll ns).openPhase targets request
  have hnone {p : Phase} : c.phases[c.phases.size]? ≠ some p := by simp
  have hold : c.tried c.phases.size i = [] := h.fresh (by simp [slot?])
  have htried : ((c.logAll ns).openPhase targets request).tried c.phases.size i = [] :=
    ((SameJournal.logAll c ns).tried _ i).trans hold
  have hslot : ((c.logAll ns).openPhase targets request).slot? c.phases.size i =
      if i < targets.length then some {} else none := slot?_openPhase.trans (if_pos rfl)
  have hheld : ((c.logAll ns).openPhase targets request).held
      (if targets.isEmpty then .complete c.phases.size .entry else .submit c.phases.size 0)
      c.phases.size i = if targets.isEmpty then [] else [0] := by
    rw [grounded.held_of_stay e rfl, grounded.held_new]
    split <;> simp [Duty.held, Caller.held]
  have htask {t : Nat} : ¬ ((c.logAll ns).openPhase targets request).IsTaskOf t c.phases.size i := by
    rintro ⟨d, hd, hphase, -⟩
    obtain ⟨target, htarget⟩ := grounded.tasks hd
    obtain ⟨p, hp, -⟩ := exists_phase_of_target? htarget
    exact hnone (hphase ▸ hp)
  have hkeeps {t : Nat} :
      ¬ ((c.logAll ns).openPhase targets request).Keeps refuses t c.phases.size i := by
    rintro (hpending | ⟨ht, -⟩)
    · exact htask hpending.isTaskOf
    · exact htask ht
  constructor
  · simp [htried]
  · intro _
    exact htried
  · simp [htried]
  · rw [hheld]
    split <;> simp
  · intro copy hcopy
    rw [hheld] at hcopy
    split at hcopy
    · simp at hcopy
    · obtain rfl := List.mem_singleton.mp hcopy
      refine ⟨by simp [htried], fun hs => ?_⟩
      rw [hslot] at hs
      split at hs
      · exact (Option.some.inj hs).symm
      · cases hs
  · intro t t' ht
    exact absurd ht hkeeps
  · intro t ht
    exact absurd ht hkeeps
  · intro t ht
    exact absurd ht.isTaskOf htask
  · intro t ht
    exact absurd ht htask
  · intro q p hq hat
    obtain ⟨p', -, -, hp', -⟩ := grounded.probes hq
    exact absurd (hat.1 ▸ hp') hnone
  · split <;> trivial

theorem unheld {t : Nat} (h : Custody refuses c d k i) (keeps : c.Keeps refuses t k i)
    (work : NoNewWork c c' k i) (held : (c'.held d' k i).Sublist (c.held d k i))
    (gone : c'.IsPending t k i → refuses t) : Unheld refuses c' d' k i where
  held := List.sublist_nil.mp (h.held_eq_nil keeps ▸ held)
  pending ht := by
    obtain rfl := h.sole_task (.inl (work.pending ht)) keeps
    exact gone ht

theorem intake (h : Custody refuses c (.rest call) k i) (sound : c.Sound (.rest call))
    (obeys : Obeys refuses c m) (hi : Intake c m c' d) : Custody refuses c' d k i := by
  have held (unrun : ∀ {a : Attempt}, d = .dispatch a → ¬ a.At k i)
      (unstarted : ∀ {targets : List ShardTarget} {request : SearchRequest},
        m = .start targets request → k ≠ c.phases.size) :
      (c'.held d k i).Sublist (c.held (.rest call) k i) :=
    hi.held_sublist sound.grounded unrun unstarted
  have tried := fun hm => (hi.sameJournal hm).tried k i
  have work := hi.noNewWork (k := k) (i := i)
  cases hi with
  | void => exact h.carry rfl rfl (.of_eq rfl rfl) (.refl _) trivial
  | reject => exact h.carry (tried (by simp)) rfl (.of_eq rfl rfl) (.refl _) trivial
  | @start targets request admitted =>
      by_cases hk : k = c.phases.size
      · subst hk
        exact h.start sound.grounded
      · have hslot : ((c.logAll [.startSpan targets.length request.sort.isSome,
            .phaseSpan c.phases.size targets.length (request.sort.map (·.field)),
            .phaseStarted c.phases.size]).openPhase targets request).slot? k i = c.slot? k i :=
          slot?_openPhase.trans (if_neg hk)
        refine h.carry (tried (by simp)) hslot work (held ?_ fun _ => hk) ?_
        · intro a hd
          split at hd <;> cases hd
        · split <;> trivial
  | @run t e found pending =>
      by_cases hat : e.phase = k ∧ e.slot = i
      · obtain ⟨rfl, rfl⟩ := hat
        have hpending : c.IsPending t e.phase e.slot := by
          rw [IsPending, found, ← pending]
        exact h.run sound.grounded hpending obeys
      · have handed := held (fun hd => by
          obtain rfl := Duty.dispatch.inj hd
          exact hat) (by simp)
        exact h.carry rfl rfl work handed trivial
  | @discard t e target found pending targeted =>
      have handed := held (by simp) (by simp)
      refine h.carry (tried (by simp)) rfl work handed fun hat => .inr ?_
      obtain ⟨rfl, rfl⟩ := hat
      have hpending : c.IsPending t e.phase e.slot := by
        rw [IsPending, found, ← pending]
      exact h.unheld (.inl hpending) work handed fun ht => absurd ht not_isPending_useTask
  | @answer probe q response found unresolved =>
      refine h.carry rfl rfl work (held (by simp) (by simp)) fun hat => .inl ?_
      exact h.probes found hat
  | answerError found => exact h.carry rfl rfl work (held (by simp) (by simp)) (h.probes found)
  | @abandon probe q found unresolved =>
      have htried := tried (by simp)
      refine h.carry htried rfl work (held (by simp) (by simp)) fun hat => ?_
      rw [htried]
      exact h.probes found hat
  | accepted | connected | sent =>
      exact h.carry rfl rfl work (held (by simp) (by simp)) trivial
  | @refused t e target error stack top found targeted =>
      have handed := held (by simp) (by simp)
      refine h.carry (tried (by simp)) rfl work handed fun hat => .inr ?_
      obtain ⟨rfl, rfl⟩ := hat
      have hrefuses := obeys t stack top
      exact h.unheld (.inr ⟨⟨e, found, rfl, rfl⟩, hrefuses⟩) work handed fun _ => hrefuses
  | @unreachable a error target node stack top found =>
      have hlookups : (({ c with stack } : Coordinator).emit
          (.resolved a target.cluster node false)).lookups =
            c.lookups ++ [⟨a, target.cluster, node, false⟩] := lookups_emit_resolved
      have htried := tried_of_lookups_append hlookups k i
      by_cases hat : a.At k i
      · obtain ⟨s, hs⟩ := sound.exists_slot? (exists_target?_of_destination? found).1
        rw [if_pos hat] at htried
        refine h.attempt htried (hat.1 ▸ hat.2 ▸ hs) rfl rfl (fun hq _ => .inl hq) ?_ fun _ => ?_
        · rw [held_of_top top]
          simp only [Frame.held, if_pos hat]
          rfl
        · have hmem : a.copy ∈ c.held (.rest call) k i := by
            simp [held_of_top top, Frame.held, hat]
          simp [htried, (h.next hmem).tried]
      · rw [if_neg hat] at htried
        exact h.carry htried rfl work (held (by simp) (by simp)) fun ha => absurd ha hat
  | unsent top found => exact h.carry rfl rfl work (held (by simp) (by simp)) (h.probes found)
  | @returned phase caller =>
      refine h.carry rfl rfl work (held ?_ (by simp)) (settles_duty _)
      intro a hd
      cases caller <;> cases hd

theorem reorder {stack : List Frame} (h : Custody refuses c (.rest call) k i)
    (perm : stack.Perm c.stack) : Custody refuses { c with stack } (.rest call) k i := by
  have hperm : (held { c with stack } (.rest call) k i).Perm (c.held (.rest call) k i) :=
    perm.filterMap _
  refine { h with
    sole := hperm.length_eq ▸ h.sole
    next := fun hcopy => ?_
    held_eq_nil := fun ht => List.perm_nil.mp (h.held_eq_nil ht ▸ hperm)
    pending := fun ht hrefuses => ?_
    settles := trivial }
  · exact (h.next (hperm.mem_iff.mp hcopy)).of_same rfl rfl
  · exact (h.pending ht hrefuses).of_same rfl rfl

theorem initial (policy : OrderingPolicy) : Custody refuses { policy } (.rest none) k i := by
  constructor <;>
    simp [tried, lookupsOf, lookups, held, Duty.held, Keeps, IsPending, IsTaskOf, slot?, Settles]

end Custody

theorem preserved_custody :
    Preserved (Obeys refuses) fun c d => ∀ k i, Custody refuses c d k i where
  intake sound h obeys hi k i := (h k i).intake sound obeys hi
  progress sound h hp k i := (h k i).progress sound hp
  reorder h perm k i := (h k i).reorder perm

theorem Run.custody (run : Run (Obeys refuses) { policy } moves c) :
    ∃ call, c.Sound (.rest call) ∧ ∀ k i, Custody refuses c (.rest call) k i :=
  preserved_custody.run run (sound_initial policy) fun _ _ => .initial policy

end Coordinator
end Prefilter
