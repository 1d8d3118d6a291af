import Prefilter.Phase.Step

/-!
A move, taken apart. A move hands the coordinator a duty (`Intake`); the coordinator discharges it in
single acts (`Progress`), each of which leaves a smaller duty, until control goes back. The two
relations say once what a move can do, and invariants are proved along them.
-/

namespace Prefilter

/-- Whether a move returns from a call of the coordinator. -/
def Move.returns : Move → Bool
  | .accepted | .refused _ | .connected _ | .unreachable _ | .sent | .unsent _ | .returned => true
  | _ => false

namespace Phase

def advance (p : Phase) (slot copy : Nat) : Phase :=
  { p with slots := p.slots.modify slot fun s => { s with cursor := .copy (copy + 1) } }

def record (p : Phase) (slot : Nat) (outcome : Outcome) : Phase :=
  { p with
    slots := p.slots.modify slot fun s => { cursor := .done, outcome := s.outcome.or (some outcome) }
    outstanding := p.outstanding - 1 }

def conclude (p : Phase) (result : OrderedShards) : Phase :=
  { p with completed := true, result := some result }

end Phase

/-- What the coordinator has yet to do before control goes back to the collaborators. -/
inductive Duty where
  /-- Nothing; the last act was a call, or there was none. -/
  | rest (call : Option Frame)
  | submit (phase slot : Nat)
  | complete (phase : Nat) (caller : Caller)
  | finish (attempt : Attempt) (outcome : Outcome) (caller : Caller)
  | dispatch (attempt : Attempt)
  | fail (attempt : Attempt) (error : ProbeError)
  | send (attempt : Attempt) (connection : Connection)

namespace Duty

/-- Every act leaves a duty of lower rank. -/
def rank : Duty → Nat
  | rest _ => 0
  | submit .. | send .. => 1
  | complete .. => 2
  | finish .. => 3
  | dispatch _ => 4
  | fail .. => 5

end Duty

/-- What is left to do for a phase once its result has been seen to. -/
def Caller.duty (phase : Nat) : Caller → Duty
  | .entry | .exhausted .. => .rest none
  | .start slot => .submit phase slot

theorem Caller.rank_duty (phase : Nat) (caller : Caller) : (caller.duty phase).rank ≤ 1 := by
  cases caller <;> simp [duty, Duty.rank]

namespace Coordinator

variable {c : Coordinator}

def updatePhase (c : Coordinator) (phase : Nat) (f : Phase → Phase) : Coordinator :=
  { c with phases := c.phases.modify phase f }

def openPhase (c : Coordinator) (targets : List ShardTarget) (request : SearchRequest) :
    Coordinator :=
  { c with phases := c.phases.push (.ofTargets targets request) }

def push (c : Coordinator) (f : Frame) : Coordinator := { c with stack := f :: c.stack }

def addTask (c : Coordinator) (phase slot : Nat) : Coordinator :=
  { c with tasks := c.tasks.push { phase, slot } }

def addProbe (c : Coordinator) (p : Probe) : Coordinator := { c with probes := c.probes.push p }

def useTask (c : Coordinator) (task : Nat) : Coordinator :=
  { c with tasks := c.tasks.modify task fun d => { d with pending := false } }

def useListener (c : Coordinator) (probe : Nat) : Coordinator :=
  { c with probes := c.probes.modify probe fun p => { p with listener := { resolved := true } } }

def logAll (c : Coordinator) (notices : List Notice) : Coordinator :=
  { c with trace := c.trace ++ (notices.map Event.log).toArray }

theorem logAll_nil (c : Coordinator) : c.logAll [] = c := by
  simp [logAll]

theorem logAll_cons (c : Coordinator) (n : Notice) (ns : List Notice) :
    c.logAll (n :: ns) = (c.log n).logAll ns := by
  simp [logAll, log, emit]

def resultOf (c : Coordinator) (p : Phase) : OrderedShards := c.policy.order p.outcomes p.request.sort

/-- What is logged about the result of a phase. -/
def resultNotices (c : Coordinator) (phase : Nat) (p : Phase) : List Notice :=
  (c.policy.remarks p.outcomes p.request.sort).map .ordering ++
    [.phaseComplete phase (c.resultOf p).summary]

def exhaustionNotice (a : Attempt) (target : ShardTarget) : Notice :=
  if target.copies.isEmpty then .unassigned a.phase a.slot target
  else .copiesExhausted a.phase a.slot target

/-- Does all that a duty asks for. -/
def perform (c : Coordinator) : Duty → Turn
  | .rest call => { coordinator := c, call }
  | .submit phase slot => c.submit phase slot
  | .complete phase caller => c.complete phase caller
  | .finish a outcome caller => c.finish a outcome caller
  | .dispatch a => c.dispatch a
  | .fail a error => c.fail a error
  | .send a connection => c.send a connection

/-- One act, which discharges a part of a duty. -/
inductive Progress (c : Coordinator) : Duty → Coordinator → Duty → Prop where
  | submitLast {phase slot : Nat} (beyond : c.target? phase slot = none) :
      Progress c (.submit phase slot) c (.rest none)
  | submit {phase slot : Nat} {target : ShardTarget} (found : c.target? phase slot = some target) :
      Progress c (.submit phase slot) ((c.addTask phase slot).push (.submitting c.tasks.size))
        (.rest (some (.submitting c.tasks.size)))
  | complete {phase : Nat} {caller : Caller} {p : Phase} (found : c.phases[phase]? = some p) :
      Progress c (.complete phase caller)
        ((((c.logAll (c.resultNotices phase p)).updatePhase phase (·.conclude (c.resultOf p))).emit
          (.delivered phase (c.resultOf p))).push (.delivering phase caller))
        (.rest (some (.delivering phase caller)))
  | supersede {a : Attempt} {outcome : Outcome} {caller : Caller} (stale : c.isCurrent a = false) :
      Progress c (.finish a outcome caller) (c.log (.superseded a)) (caller.duty a.phase)
  | record {a : Attempt} {outcome : Outcome} {caller : Caller} {p : Phase} {s : Slot}
      (found : c.phases[a.phase]? = some p) (slot : p.slots[a.slot]? = some s)
      (current : s.cursor = .copy a.copy) :
      Progress c (.finish a outcome caller) (c.updatePhase a.phase (·.record a.slot outcome))
        (if p.outstanding = 1 then .complete a.phase caller else caller.duty a.phase)
  | connect {a : Attempt} {destination : ShardTarget × NodeId}
      (found : c.destination? a = some destination) :
      Progress c (.dispatch a) (c.push (.connecting a)) (.rest (some (.connecting a)))
  | exhaust {a : Attempt} {target : ShardTarget} (found : c.target? a.phase a.slot = some target)
      (beyond : target.copies[a.copy]? = none) :
      Progress c (.dispatch a) (c.log (exhaustionNotice a target))
        (.finish a .failure (.exhausted a.slot a.copy))
  | ignore {a : Attempt} {error : ProbeError} {target : ShardTarget} {node : NodeId}
      (found : c.destination? a = some (target, node)) (stale : c.isCurrent a = false) :
      Progress c (.fail a error) (c.log (.attemptFailed a target node error)) (.rest none)
  | advance {a : Attempt} {error : ProbeError} {target : ShardTarget} {node : NodeId}
      {p : Phase} {s : Slot} (found : c.destination? a = some (target, node))
      (phase : c.phases[a.phase]? = some p) (slot : p.slots[a.slot]? = some s)
      (current : s.cursor = .copy a.copy) :
      Progress c (.fail a error)
        ((c.log (.attemptFailed a target node error)).updatePhase a.phase (·.advance a.slot a.copy))
        (.dispatch a.next)
  | send {a : Attempt} {connection : Connection} {p : Phase} {target : ShardTarget} {node : NodeId}
      (phase : c.phases[a.phase]? = some p) (found : c.destination? a = some (target, node)) :
      Progress c (.send a connection)
        (((((c.emit (.resolved a target.cluster node true)).emit
          (.sent c.probes.size a connection (p.probeRequest target node))).addProbe
          { attempt := a, connection, request := p.probeRequest target node }).push
          (.sending c.probes.size)))
        (.rest (some (.sending c.probes.size)))

/-- A move is taken up: what it uses up is gone, and a duty is left. -/
inductive Intake (c : Coordinator) : Move → Coordinator → Duty → Prop where
  /-- The move is one that nobody can make. -/
  | void {m : Move} : Intake c m c (.rest none)
  | reject {targets : List ShardTarget} {request : SearchRequest} {fault : StartFault}
      (refused : startFault? targets request = some fault) :
      Intake c (.start targets request)
        ((c.log (.startSpan targets.length request.sort.isSome)).emit (.startRefused fault))
        (.rest none)
  | start {targets : List ShardTarget} {request : SearchRequest}
      (admitted : startFault? targets request = none) :
      Intake c (.start targets request)
        ((c.logAll [.startSpan targets.length request.sort.isSome,
          .phaseSpan c.phases.size targets.length (request.sort.map (·.field)),
          .phaseStarted c.phases.size]).openPhase targets request)
        (if targets.isEmpty then .complete c.phases.size .entry else .submit c.phases.size 0)
  | run {task : Nat} {d : Dispatch} (found : c.tasks[task]? = some d) (pending : d.pending = true) :
      Intake c (.run task) (c.useTask task) (.dispatch ⟨d.phase, d.slot, 0⟩)
  | discard {task : Nat} {d : Dispatch} {target : ShardTarget} (found : c.tasks[task]? = some d)
      (pending : d.pending = true) (targeted : c.target? d.phase d.slot = some target) :
      Intake c (.discard task) ((c.useTask task).log (.dispatchDropped d.phase d.slot target))
        (.finish ⟨d.phase, d.slot, 0⟩ .failure .entry)
  | answer {probe : Nat} {p : Probe} {response : ProbeResponse} (found : c.probes[probe]? = some p)
      (unresolved : p.listener.resolved = false) :
      Intake c (.answer probe (.ok response)) (c.useListener probe)
        (.finish p.attempt response.outcome .entry)
  | answerError {probe : Nat} {p : Probe} {error : ProbeError} (found : c.probes[probe]? = some p)
      (unresolved : p.listener.resolved = false) :
      Intake c (.answer probe (.error error)) (c.useListener probe) (.fail p.attempt error)
  | abandon {probe : Nat} {p : Probe} (found : c.probes[probe]? = some p)
      (unresolved : p.listener.resolved = false) :
      Intake c (.abandon probe) ((c.useListener probe).log .listenerDropped)
        (.fail p.attempt .listenerDropped)
  | accepted {task : Nat} {d : Dispatch} {stack : List Frame}
      (top : c.stack = .submitting task :: stack) (found : c.tasks[task]? = some d) :
      Intake c .accepted { c with stack } (.submit d.phase (d.slot + 1))
  | refused {task : Nat} {d : Dispatch} {target : ShardTarget} {error : DispatchError}
      {stack : List Frame} (top : c.stack = .submitting task :: stack)
      (found : c.tasks[task]? = some d) (targeted : c.target? d.phase d.slot = some target) :
      Intake c (.refused error)
        (({ c with stack } : Coordinator).log (.dispatchRefused d.phase d.slot target error))
        (.finish ⟨d.phase, d.slot, 0⟩ .failure (.start (d.slot + 1)))
  | connected {a : Attempt} {connection : Connection} {stack : List Frame}
      (top : c.stack = .connecting a :: stack) :
      Intake c (.connected connection) { c with stack } (.send a connection)
  | unreachable {a : Attempt} {error : ProbeError} {target : ShardTarget} {node : NodeId}
      {stack : List Frame} (top : c.stack = .connecting a :: stack)
      (found : c.destination? a = some (target, node)) :
      Intake c (.unreachable error)
        (({ c with stack } : Coordinator).emit (.resolved a target.cluster node false))
        (.fail a error)
  | sent {probe : Nat} {stack : List Frame} (top : c.stack = .sending probe :: stack) :
      Intake c .sent { c with stack } (.rest none)
  | unsent {probe : Nat} {p : Probe} {error : ProbeError} {stack : List Frame}
      (top : c.stack = .sending probe :: stack) (found : c.probes[probe]? = some p) :
      Intake c (.unsent error) { c with stack } (.fail p.attempt error)
  | returned {phase : Nat} {caller : Caller} {stack : List Frame}
      (top : c.stack = .delivering phase caller :: stack) :
      Intake c .returned { c with stack } (caller.duty phase)

end Coordinator
end Prefilter
