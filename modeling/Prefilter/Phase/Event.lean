import Prefilter.Dispatch.Error
import Prefilter.Probe.Directory
import Prefilter.Probe.Message
import Prefilter.Routing.Policy

namespace Prefilter

structure Attempt where
  phase : Nat
  slot : Nat
  copy : Nat
deriving DecidableEq, Inhabited

namespace Attempt

def next (a : Attempt) : Attempt := { a with copy := a.copy + 1 }

end Attempt

inductive Level where
  | trace
  | debug
  | info
  | warn
  | span
deriving DecidableEq

namespace Level

def name : Level → String
  | trace => "TRACE"
  | debug => "DEBUG"
  | info => "INFO"
  | warn => "WARN"
  | span => "SPAN"

end Level

inductive Notice where
  | startSpan (shards : Nat) (sorted : Bool)
  | phaseSpan (phase shards : Nat) (sort : Option String)
  | phaseStarted (phase : Nat)
  | dispatchRefused (phase slot : Nat) (shard : ShardTarget) (error : DispatchError)
  | dispatchDropped (phase slot : Nat) (shard : ShardTarget)
  | unassigned (phase slot : Nat) (shard : ShardTarget)
  | copiesExhausted (phase slot : Nat) (shard : ShardTarget)
  | attemptFailed (attempt : Attempt) (shard : ShardTarget) (node : NodeId) (error : ProbeError)
  | superseded (attempt : Attempt)
  | phaseComplete (phase : Nat) (summary : Summary)
  | ordering (remark : OrderingRemark)
  | listenerDropped
  | poolShutdown (queued : Nat)
  | poolDropped
  | probeSpawned (shard : ShardId) (node : NodeId)
  | probeTimedOut (shard : ShardId) (limit : Span)
deriving DecidableEq

namespace Notice

def level : Notice → Level
  | startSpan .. => .span
  | phaseSpan .. => .span
  | phaseStarted _ => .debug
  | dispatchRefused .. => .warn
  | dispatchDropped .. => .debug
  | unassigned .. => .debug
  | copiesExhausted .. => .warn
  | attemptFailed .. => .debug
  | superseded _ => .trace
  | phaseComplete .. => .info
  | ordering _ => .debug
  | listenerDropped => .trace
  | poolShutdown _ => .debug
  | poolDropped => .trace
  | probeSpawned .. => .trace
  | probeTimedOut .. => .debug

def text : Notice → String
  | startSpan shards sorted => s!"start shards={shards} sorted={sorted}"
  | phaseSpan phase shards none => s!"can_match phase={phase} shards={shards}"
  | phaseSpan phase shards (some sort) => s!"can_match phase={phase} shards={shards} sort={sort}"
  | phaseStarted _ => "starting can-match phase"
  | dispatchRefused _ _ shard error =>
    s!"executor rejected can-match dispatch shard={shard.display} error={error.message}"
  | dispatchDropped _ _ shard =>
    s!"can-match dispatch dropped before running shard={shard.display}"
  | unassigned _ _ shard => s!"shard is unassigned shard={shard.display}"
  | copiesExhausted _ _ shard =>
    "every copy failed, shard stays in the search" ++
      s!" shard={shard.display} copies={shard.copies.length}"
  | attemptFailed attempt shard node error =>
    "can-match attempt failed" ++
      s!" shard={shard.display} node={node.text} copy={attempt.copy} error={error.message}"
  | superseded attempt =>
    s!"ignoring superseded probe result slot={attempt.slot} copy={attempt.copy}"
  | phaseComplete _ summary =>
    s!"can-match phase complete total={summary.total} skipped={summary.skipped}" ++
      s!" failed={summary.failed} sorted={summary.sorted}"
  | ordering (.keptFirst shards) => s!"no shard can match, keeping the first one shards={shards}"
  | ordering (.mixedKinds first other) =>
    "sort bounds of different kinds, keeping routing order" ++
      s!" first={first.name} other={other.name}"
  | listenerDropped => "probe listener dropped unresolved"
  | poolShutdown queued => s!"shutting down bounded executor queued={queued}"
  | poolDropped => "executor closed, dropping queued task"
  | probeSpawned shard node => s!"spawning probe shard={shard.display} node={node.text}"
  | probeTimedOut shard limit => s!"probe timed out shard={shard.display} limit={limit.display}"

def line (n : Notice) : String := s!"{n.level.name} {n.text}"

end Notice

/-- Why a phase is not started at all. -/
inductive StartFault where
  | duplicateTargets
  | sortWithoutTargets
deriving DecidableEq

namespace StartFault

def message : StartFault → String
  | duplicateTargets => "can-match phase started with duplicate shard targets"
  | sortWithoutTargets => "sorted can-match phase started without shard targets"

end StartFault

inductive Breach where
  | outcomeRecordedTwice
  | outstandingUnderflow
  | completedTwice
  | missingOutcome
deriving DecidableEq

/-- What can be observed of a run: calls to collaborators and log lines. -/
inductive Event where
  | log (notice : Notice)
  | startRefused (fault : StartFault)
  | resolved (attempt : Attempt) (cluster : Option String) (node : NodeId) (found : Bool)
  | sent (probe : Nat) (attempt : Attempt) (connection : Connection) (request : ProbeRequest)
  | delivered (phase : Nat) (result : OrderedShards)
  | breach (phase slot : Nat) (what : Breach)
deriving DecidableEq

end Prefilter
