import Prefilter.Dispatch.Error

/-!
A pool that runs a bounded number of tasks at a time and lets a bounded number wait. Every accepted
task is a waiting future: it is polled, asks for a permit, and runs when it has one. Futures are
polled in turns, one a turn; those made ready inside a running task go before those made ready from
outside, but not at every turn, so that the latter do not wait forever. Closing the pool makes every
future give up at its next poll; when the runtime goes, all futures that do not run go with it.
-/

namespace Prefilter

inductive Stage where
  | refused
  /-- Accepted; its future has not asked for a permit yet. -/
  | spawned
  /-- Its future stands in the queue for a permit. -/
  | waiting
  /-- A permit has been set aside for it, but its future has not been polled since. -/
  | granted
  | running
  | finished
  | dropped
deriving DecidableEq, Inhabited

namespace Stage

/-- Whether a task in this stage counts as queued. -/
def isQueued : Stage → Bool
  | spawned | waiting | granted => true
  | _ => false

end Stage

structure Pool where
  permits : Nat
  limit : Nat
  queued : Nat := 0
  closed : Bool := false
  alive : Bool := true
  stages : Array Stage := #[]
  /-- The tasks whose futures stand in line for a permit, first come first. -/
  line : List Nat := []
  /-- The futures to poll that were made ready inside a running task. -/
  inner : List Nat := []
  /-- The futures to poll that were made ready from outside. -/
  outer : List Nat := []
  turns : Nat := 0
deriving Inhabited

/-- What becomes of a submission at once. -/
inductive Admission where
  | queued
  /-- The task is accepted and dropped, for want of a runtime. -/
  | dropped
  | refused (error : DispatchError)
deriving DecidableEq

inductive Poll where
  | starts
  | waits
  | gaveUp
deriving DecidableEq

namespace Pool

def maxPermits : Nat := 0x1fffffffffffffff

def tooManyPermitsMessage : String :=
  s!"a semaphore may not have more than MAX_PERMITS permits ({maxPermits})"

/-- A pool with so many permits, if that is possible. -/
def ofLimits? (permits limit : Nat) : Option Pool :=
  if permits ≤ maxPermits then some { permits, limit } else none

/-- Makes futures ready to be polled, from inside a running task or from outside. -/
def wake (p : Pool) (inside : Bool) (tasks : List Nat) : Pool :=
  if inside then { p with inner := p.inner ++ tasks } else { p with outer := p.outer ++ tasks }

/-- Submits a task, from inside a running one or from outside. -/
def submit (p : Pool) (inside : Bool) : Pool × Admission :=
  let record (stage : Stage) : Pool := { p with stages := p.stages.push stage }
  if p.closed then (record .refused, .refused .shutdown)
  else if p.limit ≤ p.queued then (record .refused, .refused (.rejected p.queued p.limit))
  else if p.alive then
    (({ record .spawned with queued := p.queued + 1 }).wake inside [p.stages.size], .queued)
  else (record .dropped, .dropped)

/-- Every turn with such a number belongs to the futures made ready from outside. -/
def outerInterval : Nat := 31

/-- Takes a turn: the future to poll, if one is ready. Those made ready inside a running task come
first, those made ready from outside only at every `outerInterval`-th turn. A turn without a ready
future counts too. -/
def turn (p : Pool) : Pool × Option Nat :=
  let p := { p with turns := p.turns + 1 }
  match p.inner, p.outer with
  | [], [] => (p, none)
  | task :: inner, [] => ({ p with inner }, some task)
  | [], task :: outer => ({ p with outer }, some task)
  | first :: inner, other :: outer =>
    if p.turns % outerInterval = 0 then ({ p with outer }, some other)
    else ({ p with inner }, some first)

/-- How many turns it takes until no future is ready, while no tasks are added: no future is polled
more than twice, once when it is new and once more after it had to wait, and the last turn finds
none. -/
def turnBudget (p : Pool) : Nat := 2 * p.stages.size + 1

def roundsPerDrive : Nat := 100

/-- After so many turns a round is over; it is over before that with the first turn that finds no
future ready. -/
def turnsPerRound : Nat := 61

/-- The rest of a drive that began after `start` turns, once a turn has found no future ready: each
round that is left takes one turn. -/
def rest (p : Pool) (start : Nat) : Pool :=
  let polled := p.turns - start - 1
  { p with turns := p.turns + (roundsPerDrive - 1 - polled / turnsPerRound) }

def setStage (p : Pool) (task : Nat) (stage : Stage) : Pool :=
  { p with stages := p.stages.setIfInBounds task stage }

/-- Polls the future of a queued task. In a closed pool it gives up, and a permit that was set aside
for it is free again. -/
def poll (p : Pool) (task : Nat) : Pool × Poll :=
  let leave (stage : Stage) : Pool := { p.setStage task stage with queued := p.queued - 1 }
  match p.stages[task]? with
  | some .granted =>
    if p.closed then ({ leave .dropped with permits := p.permits + 1 }, .gaveUp)
    else (leave .running, .starts)
  | some .spawned =>
    if p.closed then (leave .dropped, .gaveUp)
    else if 0 < p.permits then ({ leave .running with permits := p.permits - 1 }, .starts)
    else ({ p.setStage task .waiting with line := p.line ++ [task] }, .waits)
  | some .waiting => if p.closed then (leave .dropped, .gaveUp) else (p, .waits)
  | _ => (p, .waits)

/-- A running task ends. Its permit goes to the first in line, or is free. -/
def finish (p : Pool) (task : Nat) : Pool :=
  if p.stages[task]? = some .running then
    let p := p.setStage task .finished
    match p.line with
    | first :: line => ({ p with line }.setStage first .granted).wake true [first]
    | [] => { p with permits := p.permits + 1 }
  else p

/-- Closes the pool: the line breaks up, and all in it are polled once more. -/
def shutdown (p : Pool) (inside : Bool) : Pool :=
  { p with closed := true, line := [] }.wake inside p.line

def queuedTasks (p : Pool) : List Nat :=
  (List.range p.stages.size).filter fun i => (p.stages[i]?.map Stage.isQueued).getD false

/-- The runtime goes, and every queued task with it; the dropped tasks are returned. -/
def dropRuntime (p : Pool) : Pool × List Nat :=
  let dropped := p.queuedTasks
  let granted := p.stages.countP (· == .granted)
  ({ p with
      alive := false
      permits := p.permits + granted
      queued := p.queued - dropped.length
      stages := p.stages.map fun s => if s.isQueued then .dropped else s
      line := []
      inner := []
      outer := [] }, dropped)

end Pool
end Prefilter
