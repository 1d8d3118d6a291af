import Prefilter.Phase.Event
import Prefilter.Phase.Request
import Prefilter.Probe.Listener

/-!
The state of a coordinator. Each shard of a phase has a slot, with a cursor at the copy that is being
probed and an outcome that is written once. Tasks and probes are kept for good, in the order of
their creation, with a mark that tells whether they are still to be used. The stack holds the calls
to collaborators that have not returned yet.
-/

namespace Prefilter

/-- Where a shard stands: the copy that is being probed, or its outcome is known. -/
inductive Cursor where
  | copy (index : Nat)
  | done
deriving DecidableEq, Inhabited

structure Slot where
  cursor : Cursor := .copy 0
  outcome : Option Outcome := none
deriving DecidableEq, Inhabited

structure Phase where
  /-- The shards in routing order. -/
  targets : Array ShardTarget
  request : SearchRequest
  slots : Array Slot
  outstanding : Nat
  completed : Bool := false
  result : Option OrderedShards := none
deriving DecidableEq, Inhabited

namespace Phase

def ofTargets (targets : List ShardTarget) (request : SearchRequest) : Phase where
  targets := targets.toArray
  request
  slots := .replicate targets.length {}
  outstanding := targets.length

/-- The shards with their outcomes, in routing order; a shard without one counts as failed. -/
def outcomes (p : Phase) : List (ShardTarget × Outcome) :=
  (p.targets.zip p.slots).toList.map fun (target, slot) => (target, slot.outcome.getD .failure)

def openSlots (p : Phase) : List Nat :=
  (List.range p.slots.size).filter fun i => (p.slots[i]?.bind (·.outcome)).isNone

def probeRequest (p : Phase) (target : ShardTarget) (node : NodeId) : ProbeRequest where
  shard := target.shard
  node
  cluster := target.cluster
  aliasFilter := target.aliasFilter
  source := p.request.source
  sort := p.request.sort
  shardCount := .ofNat p.targets.size

/-- The phase as diagnostics show it. -/
def diagnostic (p : Phase) (id : Nat) : String :=
  s!"PhaseHandle \x7b phase_id: {id}, shards: {p.targets.size}" ++
    s!", outstanding: {p.outstanding}, complete: {p.completed} \x7d"

end Phase

/-- The first attempt at one shard, as the executor is given it. -/
structure Dispatch where
  phase : Nat
  slot : Nat
  /-- Whether it has been neither run nor dropped. -/
  pending : Bool := true
deriving DecidableEq, Inhabited

structure Probe where
  attempt : Attempt
  connection : Connection
  request : ProbeRequest
  listener : Listener := {}
deriving DecidableEq, Inhabited

/-- What the coordinator goes on with once the next phase returns. -/
inductive Caller where
  /-- Nothing: the call into the coordinator is over. -/
  | entry
  /-- Handing tasks to the executor, from this routing position on. -/
  | start (slot : Nat)
  /-- Nothing: an attempt beyond the last copy of a shard is over. -/
  | exhausted (slot copy : Nat)
deriving DecidableEq, Inhabited

/-- A call to a collaborator that has not returned. -/
inductive Frame where
  | submitting (task : Nat)
  | connecting (attempt : Attempt)
  | sending (probe : Nat)
  | delivering (phase : Nat) (caller : Caller)
deriving DecidableEq, Inhabited

structure Coordinator where
  policy : OrderingPolicy := {}
  phases : Array Phase := #[]
  tasks : Array Dispatch := #[]
  probes : Array Probe := #[]
  stack : List Frame := []
  trace : Array Event := #[]
deriving Inhabited

namespace Coordinator

def emit (c : Coordinator) (e : Event) : Coordinator := { c with trace := c.trace.push e }

def log (c : Coordinator) (n : Notice) : Coordinator := c.emit (.log n)

def target? (c : Coordinator) (phase slot : Nat) : Option ShardTarget :=
  c.phases[phase]?.bind (·.targets[slot]?)

def slot? (c : Coordinator) (phase slot : Nat) : Option Slot :=
  c.phases[phase]?.bind (·.slots[slot]?)

/-- The target and the node of an attempt. -/
def destination? (c : Coordinator) (a : Attempt) : Option (ShardTarget × NodeId) :=
  (c.target? a.phase a.slot).bind fun target => target.copies[a.copy]?.map (target, ·)

/-- Whether the attempt is the one its shard stands at. -/
def isCurrent (c : Coordinator) (a : Attempt) : Bool :=
  (c.slot? a.phase a.slot).map (·.cursor) == some (.copy a.copy)

def modifySlot (c : Coordinator) (phase slot : Nat) (f : Slot → Slot) : Coordinator :=
  { c with phases := c.phases.modify phase fun p => { p with slots := p.slots.modify slot f } }

def pendingTasks (c : Coordinator) : List Nat :=
  (List.range c.tasks.size).filter fun i => (c.tasks[i]?.map (·.pending)).getD false

def openProbes (c : Coordinator) : List Nat :=
  (List.range c.probes.size).filter fun i => (c.probes[i]?.map (!·.listener.resolved)).getD false

end Coordinator
end Prefilter
