import Prefilter.Proofs.Phase.Run

/-!
Environments. An environment fixes what the collaborators of one phase do, but not when: what the
resolver knows, what the executor does with the task of each shard, and what each probe comes to. The
outcome of a shard can then be read off its copies, one after the other.
-/

namespace Prefilter

/-- What the executor does with a task in the end. -/
inductive Fate where
  | run
  | dropped
  /-- The executor says that it takes no task, and drops this one. -/
  | refused
deriving DecidableEq

/-- What a probe comes to. -/
inductive Reply where
  | response (response : ProbeResponse)
  | failure
  | dropped
  /-- The transport says that it cannot send the probe, and drops the listener. -/
  | unsent
deriving DecidableEq

/-- The collaborators of a phase. Tasks are told apart by the routing position of their shard, probes
also by the copy that they ask. -/
structure Environment where
  resolve : Option String → NodeId → Except ProbeError Connection
  fate : Nat → Fate
  reply : Nat → Nat → Reply

namespace Environment

variable {env : Environment} {target : ShardTarget} {targets : List ShardTarget} {slot copy : Nat}
  {response : ProbeResponse}

/-- The response of a copy of a shard, if it is found and gives one. -/
def answer? (env : Environment) (target : ShardTarget) (slot copy : Nat) : Option ProbeResponse :=
  target.copies[copy]?.bind fun node =>
    match env.resolve target.cluster node, env.reply slot copy with
    | .ok _, .response response => some response
    | _, _ => none

/-- The outcome of a shard: that of the first of its copies that responds, if its task is run. -/
def outcome (env : Environment) (target : ShardTarget) (slot : Nat) : Outcome :=
  match env.fate slot with
  | .run =>
    match (List.range target.copies.length).findSome? (env.answer? target slot) with
    | some response => .success response.canMatch response.bound
    | none => .failure
  | .dropped | .refused => .failure

def outcomes (env : Environment) (targets : List ShardTarget) : List (ShardTarget × Outcome) :=
  targets.zipIdx.map fun (target, slot) => (target, env.outcome target slot)

theorem answer?_of_response {node : NodeId} {connection : Connection}
    (listed : target.copies[copy]? = some node)
    (resolved : env.resolve target.cluster node = .ok connection)
    (reply : env.reply slot copy = .response response) :
    env.answer? target slot copy = some response := by
  simp [answer?, listed, resolved, reply]

theorem answer?_of_no_response (reply : ∀ response, env.reply slot copy ≠ .response response) :
    env.answer? target slot copy = none := by
  rw [answer?, Option.bind_eq_none_iff]
  intro node listed
  split
  · rename_i response hresolve hreply
    exact absurd hreply (reply response)
  · rfl

theorem answer?_of_unresolved {node : NodeId} {error : ProbeError}
    (listed : target.copies[copy]? = some node)
    (resolved : env.resolve target.cluster node = .error error) :
    env.answer? target slot copy = none := by
  simp [answer?, listed, resolved]

theorem findSome?_range_eq {α : Type} {f : Nat → Option α} {a : α} {j n : Nat} (hj : j < n)
    (before : ∀ l < j, f l = none) (found : f j = some a) : (List.range n).findSome? f = some a := by
  induction n with
  | zero => simp at hj
  | succ n ih =>
      rw [List.range_succ, List.findSome?_append]
      rcases Nat.lt_succ_iff_lt_or_eq.mp hj with hlt | rfl
      · rw [ih hlt, Option.some_or]
      · have hnone : (List.range j).findSome? f = none :=
          List.findSome?_eq_none_iff.mpr fun l hl => before l (List.mem_range.mp hl)
        simp [hnone, found]

theorem outcome_of_answer (run : env.fate slot = .run)
    (before : ∀ l < copy, env.answer? target slot l = none)
    (answer : env.answer? target slot copy = some response) :
    env.outcome target slot = .success response.canMatch response.bound := by
  have hcopy : copy < target.copies.length := by
    obtain ⟨node, listed, -⟩ := Option.bind_eq_some_iff.mp answer
    exact (List.getElem?_eq_some_iff.mp listed).1
  simp only [outcome, run, findSome?_range_eq hcopy before answer]

theorem outcome_of_no_answer (none : ∀ l < target.copies.length, env.answer? target slot l = none) :
    env.outcome target slot = .failure := by
  have hnone : (List.range target.copies.length).findSome? (env.answer? target slot) = .none :=
    List.findSome?_eq_none_iff.mpr fun l hl => none l (List.mem_range.mp hl)
  rw [outcome]
  split
  · rw [hnone]
  · rfl
  · rfl

theorem outcome_of_not_run (run : env.fate slot ≠ .run) : env.outcome target slot = .failure := by
  rw [outcome]
  split
  · contradiction
  · rfl
  · rfl

theorem getElem?_outcomes :
    (env.outcomes targets)[slot]? = targets[slot]?.map fun target => (target, env.outcome target slot) := by
  simp [outcomes, List.getElem?_zipIdx, Function.comp_def]

theorem map_fst_outcomes (env : Environment) (targets : List ShardTarget) :
    (env.outcomes targets).map (·.1) = targets := by
  rw [outcomes, List.map_map]
  exact List.zipIdx_map_fst 0 targets

/-- What the collaborators can do about a phase at some time. About other phases they can do anything. -/
def Allows (env : Environment) (phase : Nat) (c : Coordinator) : Move → Prop
  | .start .. | .returned => True
  | .run task => ∀ d, c.tasks[task]? = some d → d.phase = phase → env.fate d.slot = .run
  | .discard task => ∀ d, c.tasks[task]? = some d → d.phase = phase → env.fate d.slot ≠ .run
  | .accepted => ∀ task stack d, c.stack = .submitting task :: stack → c.tasks[task]? = some d →
      d.phase = phase → env.fate d.slot ≠ .refused
  | .refused _ => ∀ task stack d, c.stack = .submitting task :: stack → c.tasks[task]? = some d →
      d.phase = phase → env.fate d.slot = .refused
  | .connected connection => ∀ a stack target node, c.stack = .connecting a :: stack →
      c.destination? a = some (target, node) → a.phase = phase →
      env.resolve target.cluster node = .ok connection
  | .unreachable error => ∀ a stack target node, c.stack = .connecting a :: stack →
      c.destination? a = some (target, node) → a.phase = phase →
      env.resolve target.cluster node = .error error
  | .sent => ∀ probe stack p, c.stack = .sending probe :: stack → c.probes[probe]? = some p →
      p.attempt.phase = phase → env.reply p.attempt.slot p.attempt.copy ≠ .unsent
  | .unsent _ => ∀ probe stack p, c.stack = .sending probe :: stack → c.probes[probe]? = some p →
      p.attempt.phase = phase → env.reply p.attempt.slot p.attempt.copy = .unsent
  | .answer probe (.ok response) => ∀ p, c.probes[probe]? = some p → p.attempt.phase = phase →
      env.reply p.attempt.slot p.attempt.copy = .response response
  | .answer probe (.error _) => ∀ p, c.probes[probe]? = some p → p.attempt.phase = phase →
      env.reply p.attempt.slot p.attempt.copy = .failure
  | .abandon probe => ∀ p, c.probes[probe]? = some p → p.attempt.phase = phase →
      env.reply p.attempt.slot p.attempt.copy = .dropped ∨
        env.reply p.attempt.slot p.attempt.copy = .unsent

end Environment
end Prefilter
