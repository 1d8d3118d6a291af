import Prefilter.Proofs.Stack.Exchange

namespace Prefilter

namespace Coordinator

variable {c c' : Coordinator} {d d' : Duty} {m : Move} {k i : Nat} {a : Attempt} {call : Option Frame}
  {target : ShardTarget} {node : NodeId} {p : Phase}

/-- How many shards of a phase there are from a routing position on. -/
def shardsFrom (c : Coordinator) (phase slot : Nat) : Nat :=
  ((c.phases[phase]?.map (·.targets.size)).getD 0) - slot

/-- How many copies of its shard there are from an attempt on. -/
def copiesFrom (c : Coordinator) (a : Attempt) : Nat :=
  (((c.target? a.phase a.slot).map (·.copies.length)).getD 0) - a.copy

/-- How many phases still lack their result. -/
def unfinished (c : Coordinator) : Nat := c.phases.countP (!·.completed)

theorem shardsFrom_of_target? (h : c.target? k i = some target) :
    c.shardsFrom k i = c.shardsFrom k (i + 1) + 1 := by
  obtain ⟨p, hp, hlisted⟩ := exists_phase_of_target? h
  have hlt := (Array.getElem?_eq_some_iff.mp hlisted).1
  simp only [shardsFrom, hp, Option.map_some, Option.getD_some]
  omega

theorem copiesFrom_of_destination? (h : c.destination? a = some (target, node)) :
    c.copiesFrom a = c.copiesFrom a.next + 1 := by
  obtain ⟨htarget, hcopy⟩ := exists_target?_of_destination? h
  have hlt := (List.getElem?_eq_some_iff.mp hcopy).1
  simp only [copiesFrom, htarget, Attempt.next, Option.map_some, Option.getD_some]
  omega

theorem Extends.shardsFrom_eq (e : Extends c c') (found : c.phases[k]? = some p) (i : Nat) :
    c'.shardsFrom k i = c.shardsFrom k i := by
  obtain ⟨p', hp', htargets, -⟩ := e.phases found
  simp [shardsFrom, found, hp', htargets]

theorem Extends.copiesFrom_eq (e : Extends c c') (h : c.target? a.phase a.slot = some target)
    (b : Attempt) (phase : b.phase = a.phase) (slot : b.slot = a.slot) :
    c'.copiesFrom b = c.copiesFrom b := by
  simp [copiesFrom, phase, slot, h, e.target? h]

theorem unfinished_updatePhase {f : Phase → Phase} (hf : ∀ p, (f p).completed = p.completed) :
    (c.updatePhase k f).unfinished = c.unfinished := by
  have hmap : (c.phases.modify k f).map (·.completed) = c.phases.map (·.completed) := by
    apply Array.ext_getElem?
    intro j
    rw [Array.getElem?_map, Array.getElem?_map, Array.getElem?_modify]
    split
    · rw [Option.map_map]
      exact congrArg (Option.map · _) (funext hf)
    · rfl
  have hcount := congrArg (Array.countP not) hmap
  rw [Array.countP_map, Array.countP_map] at hcount
  exact hcount

theorem unfinished_conclude {result : OrderedShards} (found : c.phases[k]? = some p)
    (incomplete : p.completed = false) :
    (c.updatePhase k (·.conclude result)).unfinished + 1 = c.unfinished := by
  have hcount := countP_modify (·.conclude result) (!·.completed) found
  simp only [Phase.conclude, incomplete, Bool.not_false, Bool.not_true, Bool.toNat_true,
    Bool.toNat_false] at hcount
  simp only [unfinished, updatePhase, Phase.conclude]
  omega

end Coordinator

/-- How many moves at most the loop makes necessary that goes on after the next phase, results aside. -/
def Caller.work (c : Coordinator) (phase : Nat) : Caller → Nat
  | .start slot => 2 * c.shardsFrom phase slot
  | .entry | .exhausted .. => 0

/-- How many moves at most it takes to answer a call and all that follow from it, results aside. -/
def Frame.work (c : Coordinator) : Frame → Nat
  | .submitting task => (c.tasks[task]?.map fun d => 2 * c.shardsFrom d.phase d.slot).getD 0
  | .connecting a => 3 * c.copiesFrom a
  | .sending probe => (c.probes[probe]?.map fun p => 3 * c.copiesFrom p.attempt.next + 2).getD 0
  | .delivering phase caller => caller.work c phase + 1

namespace Duty

/-- How many moves at most a duty makes necessary, results aside: two for each shard that is still to
be handed over, and three for each attempt that can still be made. -/
def work (c : Coordinator) : Duty → Nat
  | .rest call => (call.map (·.work c)).getD 0
  | .submit phase slot => 2 * c.shardsFrom phase slot
  | .complete phase caller => caller.work c phase
  | .finish a _ caller => caller.work c a.phase
  | .dispatch a => 3 * c.copiesFrom a
  | .fail a _ => 3 * c.copiesFrom a.next
  | .send a _ => 3 * c.copiesFrom a.next + 2

/-- The call that has just been made. -/
def call? : Duty → Option Frame
  | .rest call => call
  | _ => none

end Duty

theorem Caller.work_duty (c : Coordinator) (phase : Nat) (caller : Caller) :
    (caller.duty phase).work c = caller.work c phase := by
  cases caller <;> rfl

theorem Caller.call?_duty (phase : Nat) (caller : Caller) : (caller.duty phase).call? = none := by
  cases caller <;> rfl

namespace Coordinator

variable {c c' : Coordinator} {d d' : Duty} {m : Move} {k i : Nat} {a : Attempt} {call : Option Frame}
  {target : ShardTarget} {node : NodeId} {p : Phase}

theorem Extends.work_eq (e : Extends c c') (found : c.phases[k]? = some p) (caller : Caller) :
    caller.work c' k = caller.work c k := by
  cases caller with
  | start slot => simp [Caller.work, e.shardsFrom_eq found]
  | entry => rfl
  | exhausted slot copy => rfl

theorem Progress.call?_eq_none (h : Progress c d c' d') : d.call? = none := by
  cases h <;> rfl

theorem Progress.work_le (h : Progress c d c' d') (sound : c.Sound d) :
    d'.work c' + c'.unfinished ≤ d.work c + c.unfinished := by
  have e := h.extends
  cases h with
  | submitLast => exact Nat.add_le_add_right (Nat.zero_le _) _
  | @submit phase slot target found =>
      have htask : ((c.addTask phase slot).push (.submitting c.tasks.size)).tasks[c.tasks.size]? =
          some { phase, slot } := Array.getElem?_push_size
      simp only [Duty.work, Option.map_some, Option.getD_some, Frame.work, htask]
      exact Nat.le_refl _
  | @complete phase caller p found =>
      have hincomplete : p.completed = false := by
        rw [← Bool.not_eq_true, sound.books.completed_iff found]
        simp [Duty.completes]
      have hconclude : (c.updatePhase phase (·.conclude (c.resultOf p))).unfinished + 1 =
          c.unfinished := unfinished_conclude found hincomplete
      simp only [Duty.work, Option.map_some, Option.getD_some, Frame.work, e.work_eq found]
      change _ + (c.updatePhase phase (·.conclude (c.resultOf p))).unfinished ≤ _
      omega
  | @supersede a outcome caller =>
      rw [Caller.work_duty]
      exact Nat.le_refl _
  | @record a outcome caller p s found slot current =>
      have hsame : (c.updatePhase a.phase (·.record a.slot outcome)).unfinished = c.unfinished :=
        unfinished_updatePhase fun _ => rfl
      rw [hsame]
      split
      · exact Nat.le_of_eq (congrArg (· + _) (e.work_eq found caller))
      · rw [Caller.work_duty]
        exact Nat.le_of_eq (congrArg (· + _) (e.work_eq found caller))
  | connect => exact Nat.le_refl _
  | exhaust => exact Nat.add_le_add_right (Nat.zero_le _) _
  | ignore => exact Nat.add_le_add_right (Nat.zero_le _) _
  | @advance a error target node p s found phase slot current =>
      have hsame : ((c.log (.attemptFailed a target node error)).updatePhase a.phase
          (·.advance a.slot a.copy)).unfinished = c.unfinished :=
        unfinished_updatePhase fun _ => rfl
      rw [hsame]
      have hcopies := e.copiesFrom_eq (exists_target?_of_destination? found).1 a.next rfl rfl
      exact Nat.le_of_eq (congrArg (3 * · + _) hcopies)
  | @send a connection p target node phase found =>
      simp only [Duty.work, Option.map_some, Option.getD_some, Frame.work]
      have hprobe := @Array.getElem?_push_size _ c.probes
        { attempt := a, connection, request := p.probeRequest target node : Probe }
      simp only [push, addProbe, emit, hprobe, Option.map_some, Option.getD_some]
      exact Nat.le_refl _

end Coordinator

/-- How many moves at most follow from a move, results aside. -/
def Move.work (c : Coordinator) : Move → Nat
  | .start targets _ => 2 * targets.length + 1
  | .run task => (c.tasks[task]?.map fun d => 3 * c.copiesFrom ⟨d.phase, d.slot, 0⟩).getD 0
  | .answer probe _ | .abandon probe =>
      (c.probes[probe]?.map fun p => 3 * c.copiesFrom p.attempt.next).getD 0
  | _ => 0

namespace Coordinator

variable {c : Coordinator} {call : Option Frame}

theorem unfinished_add_le {n : Nat} (h : n ≤ (c.phases.toList.map fun p =>
      (p.targets.toList.map fun t => 3 * t.copies.length + 2).sum).sum) :
    c.unfinished + n < c.phases.foldl (fun n p => n + callBudget p.targets.toList) 1 := by
  have hsize : c.unfinished ≤ c.phases.toList.length := by
    rw [Array.length_toList]
    exact Array.countP_le_size
  have hsum : (c.phases.toList.map fun p => callBudget p.targets.toList).sum = c.phases.toList.length +
      (c.phases.toList.map fun p => (p.targets.toList.map fun t => 3 * t.copies.length + 2).sum).sum := by
    simp only [callBudget_eq]
    rw [List.sum_map_add, List.map_const', List.sum_replicate]
    exact congrArg (· + _) (Nat.mul_one _)
  rw [← Array.foldl_toList, foldl_add_eq_sum, hsum]
  omega

theorem copiesFrom_le {a : Attempt} {target : ShardTarget}
    (h : c.target? a.phase a.slot = some target) :
    3 * c.copiesFrom a ≤ (c.phases.toList.map fun p =>
      (p.targets.toList.map fun t => 3 * t.copies.length + 2).sum).sum := by
  obtain ⟨p, hp, hlisted⟩ := exists_phase_of_target? h
  have hphase := List.single_le_sum (fun _ _ => Nat.zero_le _) _ (List.mem_map_of_mem
    (f := fun p : Phase => (p.targets.toList.map fun t => 3 * t.copies.length + 2).sum)
    (Array.mem_toList_iff.mpr (Array.mem_of_getElem? hp)))
  have htarget := List.single_le_sum (fun _ _ => Nat.zero_le _) _ (List.mem_map_of_mem
    (f := fun t : ShardTarget => 3 * t.copies.length + 2)
    (Array.mem_toList_iff.mpr (Array.mem_of_getElem? hlisted)))
  have hcopies : c.copiesFrom a ≤ target.copies.length := by
    simp only [copiesFrom, h, Option.map_some, Option.getD_some]
    exact Nat.sub_le _ _
  omega

/-- The fuel for the answers to a move is enough for all that can follow from it. -/
theorem Sound.work_lt_moveBudget (sound : c.Sound (.rest call)) (m : Move) :
    m.work c + c.unfinished < c.moveBudget m := by
  have hrest := unfinished_add_le (c := c) (Nat.zero_le _)
  cases m with
  | start targets request =>
      have htargets := two_mul_length_le_callBudget targets
      simp only [Move.work, moveBudget]
      omega
  | run task =>
      cases hd : c.tasks[task]? with
      | none => simpa [Move.work, hd, moveBudget] using hrest
      | some d =>
          obtain ⟨target, htarget⟩ := sound.grounded.tasks hd
          have hlt := unfinished_add_le (copiesFrom_le (a := ⟨d.phase, d.slot, 0⟩) htarget)
          simp only [Move.work, hd, Option.map_some, Option.getD_some, moveBudget]
          omega
  | answer probe result | abandon probe =>
      cases hp : c.probes[probe]? with
      | none => simpa [Move.work, hp, moveBudget] using hrest
      | some p =>
          obtain ⟨-, target, node, -, hdest, -⟩ := sound.grounded.probes hp
          obtain ⟨htarget, -⟩ := exists_target?_of_destination? hdest
          have hlt := unfinished_add_le (copiesFrom_le (a := p.attempt.next) htarget)
          simp only [Move.work, hp, Option.map_some, Option.getD_some, moveBudget]
          omega
  | _ => simpa [Move.work, moveBudget] using hrest

end Coordinator

end Prefilter
