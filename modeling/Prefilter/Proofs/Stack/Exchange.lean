import Mathlib.Algebra.Order.BigOperators.Group.List
import Mathlib.Algebra.Order.Group.Nat
import Mathlib.Algebra.Ring.Nat
import Prefilter.Phase.Stack
import Prefilter.Proofs.Phase.SlotChange
import Prefilter.Proofs.Phase.Run

namespace Prefilter

section budgets

variable {α : Type}

theorem foldl_add_eq_sum (f : α → Nat) (xs : List α) (n : Nat) :
    xs.foldl (fun n a => n + f a) n = n + (xs.map f).sum := by
  induction xs generalizing n with
  | nil => rfl
  | cons x xs ih => rw [List.foldl_cons, ih, List.map_cons, List.sum_cons, Nat.add_assoc]

theorem add_le_foldl_of_getElem? (f : α → Nat) {xs : Array α} {i : Nat} {a : α} (n : Nat)
    (h : xs[i]? = some a) : n + f a ≤ xs.foldl (fun n a => n + f a) n := by
  rw [← Array.foldl_toList, foldl_add_eq_sum]
  have hmem : f a ∈ xs.toList.map f :=
    List.mem_map_of_mem (Array.mem_toList_iff.mpr (Array.mem_of_getElem? h))
  exact Nat.add_le_add_left (List.single_le_sum (fun _ _ => Nat.zero_le _) _ hmem) n

end budgets

namespace Coordinator

variable {σ : Type} {reply : σ → Coordinator → Frame → σ × List Move} {c c' : Coordinator}
  {moves : List Move} {a : Attempt} {p : Phase} {s : Slot} {k i fuel : Nat}
  {outcome : Outcome} {caller : Caller}

/-- The answers to the call in which a turn ends, and the moves after them. -/
def follow (reply : σ → Coordinator → Frame → σ × List Move) (fuel : Nat) (s : σ) (t : Turn)
    (moves : List Move) : σ × Coordinator :=
  match t.call with
  | none => playFor reply fuel s t.coordinator moves
  | some frame =>
    let (s, answers) := reply s t.coordinator frame
    playFor reply fuel s t.coordinator (answers ++ moves)

theorem playFor_nil (fuel : Nat) (s : σ) (c : Coordinator) : playFor reply fuel s c [] = (s, c) := by
  cases fuel <;> rfl

theorem playFor_cons (fuel : Nat) (s : σ) (c : Coordinator) (m : Move) (moves : List Move) :
    playFor reply (fuel + 1) s c (m :: moves) = follow reply fuel s (c.step m) moves := rfl

theorem exists_run_playFor_of {allowed : Move → Prop}
    (answers : ∀ s c frame, ∀ m ∈ (reply s c frame).2, allowed m) (fuel : Nat) (s : σ) (c : Coordinator)
    (moves : List Move) (h : ∀ m ∈ moves, allowed m) :
    ∃ made, Run (fun _ => allowed) c made (playFor reply fuel s c moves).2 := by
  induction fuel generalizing s c moves with
  | zero => exact ⟨[], .nil⟩
  | succ fuel ih =>
      cases moves with
      | nil => exact ⟨[], .nil⟩
      | cons m moves =>
          obtain ⟨hm, hmoves⟩ := List.forall_mem_cons.mp h
          have hstep : Run (fun _ => allowed) c [m] (c.step m).coordinator := .move .nil hm
          rw [playFor_cons, follow]
          split
          · obtain ⟨made, hmade⟩ := ih s (c.step m).coordinator moves hmoves
            exact ⟨_, hstep.append hmade⟩
          · obtain ⟨made, hmade⟩ := ih _ (c.step m).coordinator (_ ++ moves)
              (List.forall_mem_append.mpr ⟨answers _ _ _, hmoves⟩)
            exact ⟨_, hstep.append hmade⟩

theorem playFor_keeps {α : Type} (part : σ → α) (answers : ∀ s c frame, part (reply s c frame).1 = part s)
    (fuel : Nat) (s : σ) (c : Coordinator) (moves : List Move) :
    part (playFor reply fuel s c moves).1 = part s := by
  induction fuel generalizing s c moves with
  | zero => rfl
  | succ fuel ih =>
      cases moves with
      | nil => rfl
      | cons m moves =>
          rw [playFor_cons, follow]
          split
          · exact ih ..
          · exact (ih ..).trans (answers ..)

/-- A phase with its result, which has been handed over. -/
def concluded (c : Coordinator) (phase : Nat) (p : Phase) : Coordinator :=
  ((c.logAll (c.resultNotices phase p)).updatePhase phase (·.conclude (c.resultOf p))).emit
    (.delivered phase (c.resultOf p))

/-- The outcome of an attempt on record, and if it was the last one of its phase, the result too. -/
def recorded (c : Coordinator) (a : Attempt) (p : Phase) (outcome : Outcome) : Coordinator :=
  let c := c.updatePhase a.phase (·.record a.slot outcome)
  if p.outstanding = 1 then c.concluded a.phase (p.record a.slot outcome) else c

/-- A probe that has been sent. -/
def launched (c : Coordinator) (a : Attempt) (target : ShardTarget) (node : NodeId)
    (connection : Connection) (request : ProbeRequest) : Coordinator :=
  ((c.emit (.resolved a target.cluster node true)).emit
    (.sent c.probes.size a connection request)).addProbe { attempt := a, connection, request }

theorem slot?_recorded :
    (c.recorded a p outcome).slot? k i =
      if a.phase = k ∧ a.slot = i then
        (c.slot? k i).map fun s => { cursor := .done, outcome := s.outcome.or (some outcome) }
      else c.slot? k i := by
  rw [← slot?_record, recorded]
  split
  · exact slot?_conclude
  · rfl

theorem slot?_recorded_of_copy {j : Nat}
    (before : c.slot? a.phase a.slot = some { cursor := .copy j }) (i : Nat) :
    (c.recorded a p outcome).slot? a.phase i =
      if i = a.slot then some { cursor := .done, outcome := some outcome } else c.slot? a.phase i := by
  rw [slot?_recorded]
  by_cases hi : i = a.slot
  · simp [hi, before]
  · simp [hi, Ne.symm hi]

@[simp] theorem recorded_stack : (c.recorded a p outcome).stack = c.stack := by
  rw [recorded]
  split <;> rfl

@[simp] theorem recorded_tasks : (c.recorded a p outcome).tasks = c.tasks := by
  rw [recorded]
  split <;> rfl

@[simp] theorem recorded_probes : (c.recorded a p outcome).probes = c.probes := by
  rw [recorded]
  split <;> rfl

/-- A shard that has moved on to its next copy after a failure. -/
def passed (c : Coordinator) (a : Attempt) (target : ShardTarget) (node : NodeId)
    (error : ProbeError) : Coordinator :=
  (c.log (.attemptFailed a target node error)).updatePhase a.phase (·.advance a.slot a.copy)

theorem slot?_passed {target : ShardTarget} {node : NodeId} {error : ProbeError} :
    (c.passed a target node error).slot? k i =
      if a.phase = k ∧ a.slot = i then
        (c.slot? k i).map fun s => { s with cursor := .copy (a.copy + 1) }
      else c.slot? k i :=
  slot?_advance

theorem slot?_passed_of_copy {target : ShardTarget} {node : NodeId} {error : ProbeError}
    (before : c.slot? a.phase a.slot = some { cursor := .copy a.copy }) (i : Nat) :
    (c.passed a target node error).slot? a.phase i =
      if i = a.slot then some { cursor := .copy (a.copy + 1) } else c.slot? a.phase i := by
  rw [slot?_passed]
  by_cases hi : i = a.slot
  · simp [hi, before]
  · simp [hi, Ne.symm hi]

/-- A shard that has failed, as an attempt at its last copy has. -/
def exhausted (c : Coordinator) (a : Attempt) (p : Phase) (target : ShardTarget) (node : NodeId)
    (error : ProbeError) : Coordinator :=
  ((c.passed a target node error).log (exhaustionNotice a.next target)).recorded a.next
    (p.advance a.slot a.copy) .failure

theorem slot?_exhausted_of_copy {target : ShardTarget} {node : NodeId} {error : ProbeError}
    (before : c.slot? a.phase a.slot = some { cursor := .copy a.copy }) (i : Nat) :
    (c.exhausted a p target node error).slot? a.phase i =
      if i = a.slot then some { cursor := .done, outcome := some .failure } else c.slot? a.phase i := by
  have hpassed (i : Nat) : ((c.passed a target node error).log (exhaustionNotice a.next target)).slot?
      a.next.phase i = _ := slot?_passed_of_copy before i
  have hrecorded := @slot?_recorded_of_copy _ a.next (p.advance a.slot a.copy) .failure _
    ((hpassed a.slot).trans (if_pos rfl)) i
  refine hrecorded.trans ?_
  by_cases hi : i = a.slot
  · simp [hi, Attempt.next]
  · rw [if_neg hi]
    exact (if_neg hi).trans ((hpassed i).trans (if_neg hi))

@[simp] theorem exhausted_stack {target : ShardTarget} {node : NodeId} {error : ProbeError} :
    (c.exhausted a p target node error).stack = c.stack := recorded_stack

@[simp] theorem exhausted_tasks {target : ShardTarget} {node : NodeId} {error : ProbeError} :
    (c.exhausted a p target node error).tasks = c.tasks := recorded_tasks

@[simp] theorem exhausted_probes {target : ShardTarget} {node : NodeId} {error : ProbeError} :
    (c.exhausted a p target node error).probes = c.probes := recorded_probes

theorem perform_fail {target : ShardTarget} {node : NodeId} {error : ProbeError}
    (destination : c.destination? a = some (target, node)) (current : c.isCurrent a = true) :
    c.perform (.fail a error) = (c.passed a target node error).perform (.dispatch a.next) := by
  have hlog : (c.log (.attemptFailed a target node error)).isCurrent a = true := current
  simp [perform, fail, destination, hlog, passed, modifySlot, updatePhase, Phase.advance]

/-- The task of a shard has been refused, and its shard has failed; the task was dropped before. -/
def turnedAway (c : Coordinator) (phase slot : Nat) (target : ShardTarget) (error : DispatchError) :
    Coordinator :=
  (((((c.addTask phase slot).useTask c.tasks.size).log (.dispatchDropped phase slot target)).updatePhase
    phase (·.record slot .failure)).log (.dispatchRefused phase slot target error)).log
      (.superseded ⟨phase, slot, 0⟩)

theorem slot?_turnedAway {phase slot : Nat} {target : ShardTarget} {error : DispatchError} :
    (c.turnedAway phase slot target error).slot? k i =
      if phase = k ∧ slot = i then
        (c.slot? k i).map fun s => { cursor := .done, outcome := s.outcome.or (some .failure) }
      else c.slot? k i :=
  slot?_record (c := ((c.addTask phase slot).useTask c.tasks.size).log _)

theorem perform_complete (found : c.phases[k]? = some p) (incomplete : p.completed = false)
    (closed : p.openSlots = []) :
    c.perform (.complete k caller) =
      { coordinator := (c.concluded k p).push (.delivering k caller)
        call := some (.delivering k caller) } := by
  simp only [perform, complete, found, incomplete, closed, List.foldl_nil, foldl_log_eq_logAll]
  simp [concluded, resultNotices, logAll, log, emit, call, push, updatePhase, resultOf, Phase.conclude]

theorem callBudget_eq (targets : List ShardTarget) :
    callBudget targets = 1 + (targets.map fun t => 3 * t.copies.length + 2).sum := by
  rw [← foldl_add_eq_sum, callBudget]
  rfl

theorem two_mul_length_le_callBudget (targets : List ShardTarget) :
    2 * targets.length + 1 ≤ callBudget targets := by
  rw [callBudget_eq]
  induction targets with
  | nil => simp
  | cons t ts ih =>
      simp only [List.length_cons, List.map_cons, List.sum_cons]
      omega

theorem four_le_moveBudget {c : Coordinator} {k i : Nat} {p : Phase} {target : ShardTarget}
    (found : c.phases[k]? = some p) (listed : p.targets[i]? = some target) (m : Move) :
    4 ≤ c.moveBudget m := by
  have hrunning := add_le_foldl_of_getElem? (fun p => callBudget p.targets.toList) 1 found
  have hcalls := two_mul_length_le_callBudget p.targets.toList
  have hpos : 0 < p.targets.toList.length := by
    rw [Array.length_toList]
    exact Nat.lt_of_le_of_lt (Nat.zero_le i) (Array.getElem?_eq_some_iff.mp listed).1
  cases m <;> simp only [moveBudget] <;> omega

end Coordinator

/-- The runtime once a probe has been handed to its carrier. -/
def Runtime.launch {σ : Type} (r : Runtime σ) (b : Backend σ) (probe : Nat) (connection : Connection)
    (request : ProbeRequest) : Runtime σ :=
  { r with carrier := (r.carrier.send probe (connection, request) (b.delay connection request)).1 }

namespace Backend

open Coordinator

variable {σ : Type} {b : Backend σ} {r : Runtime σ} {c : Coordinator} {moves : List Move}
  {a : Attempt} {p : Phase} {s : Slot} {k fuel : Nat} {outcome : Outcome} {caller : Caller}
  {target : ShardTarget} {node : NodeId} {connection : Connection} {error : ProbeError}

theorem follow_dispatch (alive : r.carrier.alive = true) (found : c.phases[a.phase]? = some p)
    (destination : c.destination? a = some (target, node))
    (resolved : b.directory.resolve target.cluster node = .ok connection) :
    follow b.reply (fuel + 2) r (c.perform (.dispatch a)) moves =
      playFor b.reply fuel (r.launch b c.probes.size connection (p.probeRequest target node))
        (c.launched a target node connection (p.probeRequest target node)) moves := by
  let launched := c.launched a target node connection (p.probeRequest target node)
  obtain ⟨htarget, hnode⟩ := exists_target?_of_destination? destination
  have hdispatch : c.perform (.dispatch a) =
      { coordinator := c.push (.connecting a), call := some (.connecting a) } := by
    simp [perform, dispatch, htarget, hnode, call, push]
  have hdestination : (c.push (.connecting a)).destination? a = some (target, node) := destination
  have hconnecting : b.reply r (c.push (.connecting a)) (.connecting a) =
      (r, [.connected connection]) := by
    simp [reply, hdestination, resolved]
  have hconnected : (c.push (.connecting a)).step (.connected connection) =
      { coordinator := launched.push (.sending c.probes.size)
        call := some (.sending c.probes.size) } := by
    simp only [step, push, send, found, destination]
    rfl
  have hsending : b.reply r (launched.push (.sending c.probes.size)) (.sending c.probes.size) =
      (r.launch b c.probes.size connection (p.probeRequest target node), [.sent]) := by
    have hprobe : (launched.push (.sending c.probes.size)).probes[c.probes.size]? =
        some { attempt := a, connection, request := p.probeRequest target node } :=
      Array.getElem?_push_size
    simp [reply, hprobe, Carrier.send, alive, Runtime.launch]
  have hsent : (launched.push (.sending c.probes.size)).step .sent = { coordinator := launched } := rfl
  simp only [hdispatch, follow, hconnecting, List.cons_append, List.nil_append, playFor_cons,
    hconnected, hsending, hsent]
  rfl

theorem follow_submit {i : Nat} (found : c.target? k i = some target)
    (queued : (r.pool.submit false).2 = .queued) :
    follow b.reply (fuel + 1) r (c.perform (.submit k i)) moves =
      follow b.reply fuel { r with pool := (r.pool.submit false).1 }
        ((c.addTask k i).perform (.submit k (i + 1))) moves := by
  have hsubmit : c.perform (.submit k i) =
      { coordinator := (c.addTask k i).push (.submitting c.tasks.size)
        call := some (.submitting c.tasks.size) } := by
    simp [perform, submit, found, call, push, addTask]
  have haccepted : ((c.addTask k i).push (.submitting c.tasks.size)).step .accepted =
      (c.addTask k i).perform (.submit k (i + 1)) := by
    have htask : ((c.addTask k i).push (.submitting c.tasks.size)).tasks[c.tasks.size]? =
        some { phase := k, slot := i } := Array.getElem?_push_size
    simp only [step, push] at htask ⊢
    simp only [htask]
    rfl
  simp only [hsubmit, follow, reply, queued, Admission.moves, List.cons_append, List.nil_append,
    playFor_cons, haccepted]

/-- A task that is refused is dropped before the refusal is told, so that the refusal itself comes too
late to count. -/
theorem follow_submit_refused {i : Nat} {refusal : DispatchError} (sound : c.Sound (.submit k i))
    (found : c.target? k i = some target) (refused : (r.pool.submit false).2 = .refused refusal)
    (phase : c.phases[k]? = some p) (slot : p.slots[i]? = some s) (fresh : s.cursor = .copy 0)
    (others : p.outstanding ≠ 1) :
    (c.turnedAway k i target refusal).Sound (.submit k (i + 1)) ∧
      follow b.reply (fuel + 2) r (c.perform (.submit k i)) moves =
        follow b.reply fuel { r with pool := (r.pool.submit false).1 }
          ((c.turnedAway k i target refusal).perform (.submit k (i + 1))) moves := by
  let submitted := (c.addTask k i).push (.submitting c.tasks.size)
  let dropped := (((submitted.useTask c.tasks.size).log (.dispatchDropped k i target)).updatePhase k
    (·.record i .failure))
  have hsubmit : c.perform (.submit k i) =
      { coordinator := submitted, call := some (.submitting c.tasks.size) } := by
    simp [submitted, perform, submit, found, call, push, addTask]
  have hsubmitted : submitted.Sound (.rest (some (.submitting c.tasks.size))) :=
    sound.progress (.submit found)
  have htask : submitted.tasks[c.tasks.size]? = some { phase := k, slot := i } :=
    Array.getElem?_push_size
  have hdiscarded := hsubmitted.intake (.discard htask rfl found)
  have hdropped : dropped.Sound (.rest none) := by
    have hrecord := hdiscarded.progress (.record (a := ⟨k, i, 0⟩) phase slot fresh)
    rwa [if_neg others] at hrecord
  have hdiscard : submitted.step (.discard c.tasks.size) = { coordinator := dropped } := by
    rw [step_discard htask rfl found]
    exact (finish_of_current phase slot fresh (hdiscarded.books.balanced phase)).trans (if_neg others)
  have hused : dropped.tasks[c.tasks.size]? = some { phase := k, slot := i, pending := false } :=
    getElem?_modify_eq_some.mpr ⟨_, htask, if_pos rfl⟩
  have htarget : dropped.target? k i = some target := by
    have htarget := (hsubmitted.extends_step (.discard c.tasks.size)).target? found
    rwa [hdiscard] at htarget
  have hrefuse := hdropped.intake (@Intake.refused _ _ _ _ refusal _ rfl hused htarget)
  have hphase : dropped.phases[k]? = some (p.record i .failure) :=
    getElem?_modify_eq_some.mpr ⟨p, phase, if_pos rfl⟩
  have hslot : (p.record i .failure).slots[i]? =
      some { cursor := .done, outcome := s.outcome.or (some .failure) } :=
    getElem?_modify_eq_some.mpr ⟨s, slot, if_pos rfl⟩
  have hstale : (({ dropped with stack := c.stack } : Coordinator).log
      (.dispatchRefused k i target refusal)).isCurrent ⟨k, i, 0⟩ = false := by
    rw [← Bool.not_eq_true, isCurrent_iff]
    rintro ⟨p', s', hp', hs', hcursor⟩
    obtain rfl := Option.some.inj (hphase.symm.trans hp')
    obtain rfl := Option.some.inj (hslot.symm.trans hs')
    cases hcursor
  have hrefused : dropped.step (.refused refusal) =
      (c.turnedAway k i target refusal).perform (.submit k (i + 1)) := by
    have hstack : dropped.stack = .submitting c.tasks.size :: c.stack := rfl
    have hpopped : ({ dropped with stack := c.stack } : Coordinator).target? k i = some target := htarget
    simp only [step, hstack, hused, refuse, hpopped]
    exact @finish_of_stale _ ⟨k, i, 0⟩ .failure (.start (i + 1)) _ _ hphase hslot (by simp)
  refine ⟨hrefuse.progress (.supersede hstale), ?_⟩
  simp only [hsubmit, follow, reply, refused, Admission.moves, List.cons_append, List.nil_append,
    playFor_cons, submitted, hdiscard, hrefused]

theorem follow_complete (sound : c.Sound (.complete k caller)) (found : c.phases[k]? = some p) :
    follow b.reply (fuel + 1) r (c.perform (.complete k caller)) moves =
      follow b.reply fuel r ((c.concluded k p).perform (caller.duty k)) moves := by
  have hincomplete : p.completed = false := by
    rw [← Bool.not_eq_true, sound.books.completed_iff found]
    simp [Duty.completes]
  have hclosed := (sound.books.balanced found).openSlots_eq_nil (sound.books.due rfl found)
  have hreturned : ((c.concluded k p).push (.delivering k caller)).step .returned =
      (c.concluded k p).perform (caller.duty k) := resume_eq_perform (c.concluded k p) k caller
  rw [perform_complete found hincomplete hclosed]
  simp only [follow, reply, List.cons_append, List.nil_append, playFor_cons, hreturned]

theorem follow_finish (sound : c.Sound (.finish a outcome caller))
    (last : caller.duty a.phase = .rest none) (found : c.phases[a.phase]? = some p)
    (slot : p.slots[a.slot]? = some s) (current : s.cursor = .copy a.copy) :
    follow b.reply (fuel + 1) r (c.perform (.finish a outcome caller)) [] =
      (r, c.recorded a p outcome) := by
  have hrecorded := sound.progress (.record found slot current)
  rw [perform, finish_of_current found slot current (sound.books.balanced found), resume_eq_perform,
    last, recorded]
  split
  · rename_i hone
    rw [if_pos hone] at hrecorded
    have hfound : (c.updatePhase a.phase (·.record a.slot outcome)).phases[a.phase]? =
        some (p.record a.slot outcome) :=
      getElem?_modify_eq_some.mpr ⟨p, found, if_pos rfl⟩
    have hcomplete := @follow_complete σ b r _ [] _ _ fuel caller hrecorded hfound
    rw [perform, last] at hcomplete
    rw [hcomplete]
    exact playFor_nil fuel r _
  · exact @playFor_nil _ b.reply (fuel + 1) r _

theorem follow_fail_last (sound : c.Sound (.fail a error))
    (destination : c.destination? a = some (target, node)) (found : c.phases[a.phase]? = some p)
    (slot : p.slots[a.slot]? = some s) (current : s.cursor = .copy a.copy)
    (beyond : target.copies[a.copy + 1]? = none) :
    follow b.reply (fuel + 1) r (c.perform (.fail a error)) [] =
      (r, c.exhausted a p target node error) := by
  have hcurrent : c.isCurrent a = true := isCurrent_iff.mpr ⟨p, s, found, slot, current⟩
  have hadvance : Progress c (.fail a error) (c.passed a target node error) (.dispatch a.next) :=
    .advance destination found slot current
  have htarget : (c.passed a target node error).target? a.phase a.slot = some target :=
    hadvance.extends.target? (exists_target?_of_destination? destination).1
  have hfound : (c.passed a target node error).phases[a.phase]? = some (p.advance a.slot a.copy) :=
    getElem?_modify_eq_some.mpr ⟨p, found, if_pos rfl⟩
  have hslot : (p.advance a.slot a.copy).slots[a.slot]? =
      some { s with cursor := .copy (a.copy + 1) } :=
    getElem?_modify_eq_some.mpr ⟨s, slot, if_pos rfl⟩
  have hexhaust : (c.passed a target node error).perform (.dispatch a.next) =
      ((c.passed a target node error).log (exhaustionNotice a.next target)).perform
        (.finish a.next .failure (.exhausted a.next.slot a.next.copy)) := by
    simp [perform, dispatch, Attempt.next, htarget, beyond, exhaustionNotice]
  rw [perform_fail destination hcurrent, hexhaust]
  exact follow_finish ((sound.progress hadvance).progress (.exhaust htarget beyond)) rfl hfound hslot rfl

end Backend

namespace Stack

open Coordinator Backend

variable {σ : Type} {b : Backend σ} {s : Stack σ} {p : Phase} {k i t id : Nat}
  {target : ShardTarget} {node : NodeId}
  {connection : Connection} {probe : Probe} {slot : Slot}

theorem exists_run_move (b : Backend σ) (s : Stack σ) (m : Move) :
    ∃ made, Run (fun _ _ => True) s.coordinator made (s.move b m).coordinator :=
  exists_run_playFor_of (fun _ _ _ _ _ => trivial) _ _ _ _ fun _ _ => trivial

theorem backend_move (b : Backend σ) (s : Stack σ) (m : Move) :
    (s.move b m).runtime.backend = s.runtime.backend := by
  refine playFor_keeps Runtime.backend (fun r c frame => ?_) _ _ _ _
  cases frame with
  | submitting task => rfl
  | connecting attempt =>
      simp only [reply]
      split
      · rfl
      · split <;> rfl
  | sending probe =>
      simp only [reply]
      split
      · rfl
      · split <;> rfl
  | delivering phase caller => rfl

theorem backend_poll (b : Backend σ) (s : Stack σ) (task : Nat) :
    (s.poll b task).runtime.backend = s.runtime.backend := by
  rw [poll]
  split
  · exact backend_move b ..
  · rfl
  · exact backend_move b ..

theorem backend_land (b : Backend σ) (s : Stack σ) (f : Flight (Connection × ProbeRequest)) :
    (s.land b f).runtime.backend =
      if f.late then s.runtime.backend else (b.answer s.runtime.backend f.load.1 f.load.2).1 := by
  obtain ⟨id, ⟨connection, request⟩, due, late⟩ := f
  cases late with
  | true => exact backend_move b ..
  | false =>
      simp only [land, Bool.false_eq_true, if_false]
      split <;> exact backend_move b ..

theorem move_eq_follow (b : Backend σ) (m : Move) {fuel : Nat}
    (budget : s.coordinator.moveBudget m = fuel + 1) :
    s.move b m =
      { runtime := (follow b.reply fuel s.runtime (s.coordinator.step m) []).1
        coordinator := (follow b.reply fuel s.runtime (s.coordinator.step m) []).2 } := by
  rw [move, play, budget, playFor_cons]

theorem move_run (alive : s.runtime.carrier.alive = true)
    (task : s.coordinator.tasks[t]? = some { phase := k, slot := i })
    (phase : s.coordinator.phases[k]? = some p) (listed : p.targets[i]? = some target)
    (copy : target.copies[0]? = some node)
    (resolved : b.directory.resolve target.cluster node = .ok connection) :
    s.move b (.run t) =
      { runtime := s.runtime.launch b s.coordinator.probes.size connection (p.probeRequest target node)
        coordinator := (s.coordinator.useTask t).launched ⟨k, i, 0⟩ target node connection
          (p.probeRequest target node) } := by
  obtain ⟨fuel, hfuel⟩ := Nat.exists_eq_add_of_le' (four_le_moveBudget phase listed (.run t))
  have htarget : (s.coordinator.useTask t).target? k i = some target :=
    Option.bind_eq_some_iff.mpr ⟨p, phase, listed⟩
  have hdestination : (s.coordinator.useTask t).destination? ⟨k, i, 0⟩ = some (target, node) := by
    simp [destination?, htarget, copy]
  have hstep : s.coordinator.step (.run t) =
      (s.coordinator.useTask t).perform (.dispatch ⟨k, i, 0⟩) := by
    simp [step, takeTask?_eq_some task rfl, perform]
  rw [move_eq_follow b (.run t) hfuel, hstep,
    follow_dispatch alive phase hdestination resolved, playFor_nil]
  rfl

section answers

variable {call : Option Frame} {response : ProbeResponse} {error : ProbeError}
  (sound : s.coordinator.Sound (.rest call)) (found : s.coordinator.probes[id]? = some probe)

include sound found

theorem exists_moveBudget_eq (m : Move) : ∃ fuel, s.coordinator.moveBudget m = fuel + 4 := by
  obtain ⟨q, target, node, hq, hdestination, -⟩ := sound.grounded.probes found
  obtain ⟨htarget, -⟩ := exists_target?_of_destination? hdestination
  obtain ⟨q, hq, hlisted⟩ := exists_phase_of_target? htarget
  exact Nat.exists_eq_add_of_le' (four_le_moveBudget hq hlisted m)

variable (phase : s.coordinator.phases[probe.attempt.phase]? = some p)
  (unresolved : probe.listener.resolved = false)
  (current : p.slots[probe.attempt.slot]? = some slot)
  (cursor : slot.cursor = .copy probe.attempt.copy)

include phase unresolved current cursor

theorem move_answer_ok :
    s.move b (.answer id (.ok response)) =
      { runtime := s.runtime
        coordinator := (s.coordinator.useListener id).recorded probe.attempt p response.outcome } := by
  obtain ⟨fuel, hfuel⟩ := exists_moveBudget_eq sound found (.answer id (.ok response))
  have hintake := sound.intake (@Intake.answer _ _ _ response found unresolved)
  rw [move_eq_follow b _ hfuel, step_answer found unresolved,
    follow_finish hintake rfl phase current cursor]

variable (destination : s.coordinator.destination? probe.attempt = some (target, node))

include destination

theorem move_answer_next {node' : NodeId} (alive : s.runtime.carrier.alive = true)
    (copy : target.copies[probe.attempt.copy + 1]? = some node')
    (resolved : b.directory.resolve target.cluster node' = .ok connection) :
    s.move b (.answer id (.error error)) =
      { runtime := s.runtime.launch b s.coordinator.probes.size connection (p.probeRequest target node')
        coordinator := ((s.coordinator.useListener id).passed probe.attempt target node error).launched
          probe.attempt.next target node' connection (p.probeRequest target node') } := by
  obtain ⟨fuel, hfuel⟩ := exists_moveBudget_eq sound found (.answer id (.error error))
  have hcurrent : (s.coordinator.useListener id).isCurrent probe.attempt = true :=
    isCurrent_iff.mpr ⟨p, slot, phase, current, cursor⟩
  have hpassed : ((s.coordinator.useListener id).passed probe.attempt target node error).phases[
      probe.attempt.next.phase]? = some (p.advance probe.attempt.slot probe.attempt.copy) :=
    getElem?_modify_eq_some.mpr ⟨p, phase, if_pos rfl⟩
  have hused : (s.coordinator.useListener id).destination? probe.attempt = some (target, node) :=
    destination
  have hdestination : ((s.coordinator.useListener id).passed probe.attempt target node
      error).destination? probe.attempt.next = some (target, node') := by
    obtain ⟨htarget, -⟩ := exists_target?_of_destination? destination
    obtain ⟨q, hq, hlisted⟩ := exists_phase_of_target? htarget
    obtain rfl := Option.some.inj (phase.symm.trans hq)
    have htarget : ((s.coordinator.useListener id).passed probe.attempt target node error).target?
        probe.attempt.next.phase probe.attempt.next.slot = some target :=
      Option.bind_eq_some_iff.mpr ⟨_, hpassed, hlisted⟩
    rw [destination?, htarget, Option.bind_some, Attempt.next, copy, Option.map_some]
  have hsize : ((s.coordinator.useListener id).passed probe.attempt target node error).probes.size =
      s.coordinator.probes.size := Array.size_modify
  rw [move_eq_follow b _ hfuel, step_answerError found unresolved,
    perform_fail hused hcurrent, follow_dispatch alive hpassed hdestination resolved, playFor_nil,
    hsize]
  rfl

theorem move_answer_last (beyond : target.copies[probe.attempt.copy + 1]? = none) :
    s.move b (.answer id (.error error)) =
      { runtime := s.runtime
        coordinator := (s.coordinator.useListener id).exhausted probe.attempt p target node error } := by
  obtain ⟨fuel, hfuel⟩ := exists_moveBudget_eq sound found (.answer id (.error error))
  have hintake := sound.intake (@Intake.answerError _ _ _ error found unresolved)
  rw [move_eq_follow b _ hfuel, step_answerError found unresolved,
    follow_fail_last hintake destination phase current cursor beyond]

end answers

end Stack
end Prefilter
