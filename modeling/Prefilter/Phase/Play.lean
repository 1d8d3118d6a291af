import Prefilter.Phase.Step

namespace Prefilter.Coordinator

/-- How many moves answer the calls of a phase over these targets: two for the task of each shard,
three for the attempt at each copy, and one for the result. -/
def callBudget (targets : List ShardTarget) : Nat :=
  targets.foldl (fun n t => n + 3 * t.copies.length + 2) 1

/-- A bound on the moves that follow from a move, itself included. -/
def moveBudget (c : Coordinator) (m : Move) : Nat :=
  let running := c.phases.foldl (fun n p => n + callBudget p.targets.toList) 1
  match m with
  | .start targets _ => running + callBudget targets
  | _ => running

variable {σ : Type}

/-- Makes moves in turn, each followed by the answers to the call that it causes. `reply` says how
the collaborators, whose state is `σ`, answer a call. -/
def playFor (reply : σ → Coordinator → Frame → σ × List Move) :
    Nat → σ → Coordinator → List Move → σ × Coordinator
  | 0, s, c, _ => (s, c)
  | _, s, c, [] => (s, c)
  | fuel + 1, s, c, m :: moves =>
    let turn := c.step m
    match turn.call with
    | none => playFor reply fuel s turn.coordinator moves
    | some frame =>
      let (s, answers) := reply s turn.coordinator frame
      playFor reply fuel s turn.coordinator (answers ++ moves)

def play (c : Coordinator) (reply : σ → Coordinator → Frame → σ × List Move) (s : σ) (m : Move) :
    σ × Coordinator :=
  playFor reply (c.moveBudget m) s c [m]

end Prefilter.Coordinator
