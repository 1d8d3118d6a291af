import Prefilter.Probe.Listener

/-!
A transport that runs each probe as a future of its own, on a clock that only moves when it is told
to. A probe that takes longer than the limit resolves at the limit; when the runtime goes, every
probe under way is dropped.
-/

namespace Prefilter

structure Flight (α : Type) where
  id : Nat
  load : α
  /-- The time at which it resolves. -/
  due : Nat
  /-- Whether it then runs into the limit. -/
  late : Bool
deriving DecidableEq

/-- Times are in milliseconds. -/
structure Carrier (α : Type) where
  now : Nat := 0
  limit : Option Nat := none
  alive : Bool := true
  flights : List (Flight α) := []

namespace Carrier

variable {α : Type}

/-- How long a probe takes that would answer after `delay`, and whether the limit cuts it short. An
answer at the very limit still counts. -/
def duration (limit : Option Nat) (delay : Nat) : Nat × Bool :=
  match limit with
  | none => (delay, false)
  | some limit => if delay ≤ limit then (delay, false) else (limit, true)

/-- Sends a probe. Without a runtime it is dropped at once, which the second result tells. -/
def send (c : Carrier α) (id : Nat) (load : α) (delay : Nat) : Carrier α × Bool :=
  if c.alive then
    let (after, late) := duration c.limit delay
    ({ c with flights := c.flights ++ [{ id, load, due := c.now + after, late }] }, true)
  else (c, false)

/-- The first of the flights that are due earliest. -/
def earliest? : List (Flight α) → Option (Flight α)
  | [] => none
  | f :: rest =>
    match earliest? rest with
    | none => some f
    | some g => if g.due < f.due then some g else some f

/-- Takes the next flight that is due by `time`, and moves the clock there. -/
def land? (c : Carrier α) (time : Nat) : Option (Flight α × Carrier α) :=
  match earliest? c.flights with
  | none => none
  | some f =>
    if f.due ≤ time then
      some (f, { c with now := max c.now f.due, flights := c.flights.filter (·.id != f.id) })
    else none

/-- Takes up to `count` flights that are due by `time`, in the order in which they resolve. -/
def landMany (c : Carrier α) (time : Nat) : Nat → Carrier α × List (Flight α)
  | 0 => (c, [])
  | count + 1 =>
    match c.land? time with
    | none => (c, [])
    | some (f, c) =>
      let (c, others) := c.landMany time count
      (c, f :: others)

def advance (c : Carrier α) (ms : Nat) : Carrier α × List (Flight α) :=
  let (after, landed) := c.landMany (c.now + ms) c.flights.length
  ({ after with now := c.now + ms }, landed)

/-- What a flight that runs into the limit comes to. -/
def lateResult (c : Carrier α) : ProbeResult :=
  .error (.timeout (.ofMilliseconds (c.limit.getD 0)))

/-- What a flight comes to, given the answer of the probe itself. -/
def result (c : Carrier α) (f : Flight α) (answer : ProbeResult) : ProbeResult :=
  if f.late then c.lateResult else answer

/-- The runtime goes; the flights that were under way are returned. -/
def dropRuntime (c : Carrier α) : Carrier α × List (Flight α) :=
  ({ c with alive := false, flights := [] }, c.flights)

end Carrier
end Prefilter
