import Prefilter.Phase.Stack

namespace Prefilter.Rehearsal

inductive TaskCue where
  | run
  | reject
  | shutdown
  | drop
  | keep
  | runThenReject
  | keepThenReject
deriving DecidableEq, Inhabited

inductive ExecutorScript where
  | direct
  /-- A cue for each task in turn; the last one repeats, and without any all tasks run. -/
  | cued (cues : Array TaskCue)
  | pooled

/-- What a scripted transport does with a probe. -/
inductive Act where
  | respond (response : ProbeResponse)
  | fail (text : String)
  | drop
  | hold
  | error (text : String)
  | respondThenError (response : ProbeResponse) (text : String)
  | failThenError (text : String)
  | holdThenError (text : String)
deriving DecidableEq, Inhabited

/-- An act for the probes that agree with all of the given fields. -/
structure Rule where
  index : Option IndexName := none
  ordinal : Option UInt32 := none
  node : Option NodeId := none
  cluster : Option (Option String) := none
  act : Act

namespace Rule

def applies (r : Rule) (request : ProbeRequest) : Bool :=
  let agrees {α : Type} [DecidableEq α] (wanted : Option α) (actual : α) : Bool :=
    match wanted with
    | none => true
    | some a => a == actual
  agrees r.index request.shard.index && agrees r.ordinal request.shard.ordinal &&
    agrees r.node request.node && agrees r.cluster request.cluster

end Rule

structure Script where
  executor : ExecutorScript := .direct
  /-- The connections that exist; without a directory all of them do. -/
  directory : Option Directory := none
  rules : List Rule := []
  otherwise : Act := .hold

namespace Script

/-- The number that a scripted executor gives as its limit. -/
def cuedLimit : Nat := 7

def cueMoves (task : Nat) : TaskCue → List Move
  | .run => [.run task, .accepted]
  | .reject => [.discard task, .refused (.rejected task cuedLimit)]
  | .shutdown => [.discard task, .refused .shutdown]
  | .drop => [.discard task, .accepted]
  | .keep => [.accepted]
  | .runThenReject => [.run task, .refused (.rejected task cuedLimit)]
  | .keepThenReject => [.refused (.rejected task cuedLimit)]

def cueOf (cues : Array TaskCue) (task : Nat) : TaskCue :=
  (cues[min task (cues.size - 1)]?).getD .run

/-- What the executor does with a new task. -/
def submission (s : Script) (pool : Option Pool) (task : Nat) : Option Pool × List Move :=
  match s.executor, pool with
  | .pooled, some pool =>
    let (pool, admission) := pool.submit false
    (some pool, admission.moves task)
  | .cued cues, pool => (pool, cueMoves task (cueOf cues task))
  | _, pool => (pool, cueMoves task .run)

def connection (s : Script) (cluster : Option String) (node : NodeId) : Move :=
  match s.directory with
  | none => .connected { node, cluster }
  | some directory =>
    match directory.resolve cluster node with
    | .ok connection => .connected connection
    | .error error => .unreachable error

def actOf (s : Script) (request : ProbeRequest) : Act :=
  match s.rules.find? (·.applies request) with
  | some rule => rule.act
  | none => s.otherwise

def actMoves (probe : Nat) (node : NodeId) : Act → List Move
  | .respond response => [.answer probe (.ok response), .sent]
  | .fail text => [.answer probe (.error (.remote node text)), .sent]
  | .drop => [.abandon probe, .sent]
  | .hold => [.sent]
  | .error text => [.abandon probe, .unsent (.dispatch text)]
  | .respondThenError response text => [.answer probe (.ok response), .unsent (.dispatch text)]
  | .failThenError text => [.answer probe (.error (.remote node text)), .unsent (.dispatch text)]
  | .holdThenError text => [.unsent (.dispatch text)]

/-- How the collaborators answer a call. -/
def reply (s : Script) (pool : Option Pool) (c : Coordinator) : Frame → Option Pool × List Move
  | .submitting task => s.submission pool task
  | .connecting attempt =>
    match c.destination? attempt with
    | some (target, node) => (pool, [s.connection target.cluster node])
    | none => (pool, [])
  | .sending probe =>
    match c.probes[probe]? with
    | some p => (pool, actMoves probe p.request.node (s.actOf p.request))
    | none => (pool, [])
  | .delivering .. => (pool, [.returned])

def move (s : Script) (pool : Option Pool) (c : Coordinator) (m : Move) :
    Option Pool × Coordinator :=
  c.play s.reply pool m

/-- Polls the futures of the pool until none is ready. -/
def driveFor (s : Script) : Nat → Pool → Coordinator → Option Pool × Coordinator
  | 0, pool, c => (some pool, c)
  | fuel + 1, pool, c =>
    match pool.turn with
    | (pool, none) => (some pool, c)
    | (pool, some task) =>
      match pool.poll task with
      | (pool, .starts) =>
        let (after, c) := s.move (some pool) c (.run task)
        s.driveFor fuel ((after.getD pool).finish task) c
      | (pool, .waits) => s.driveFor fuel pool c
      | (pool, .gaveUp) =>
        let (after, c) := s.move (some pool) (c.log .poolDropped) (.discard task)
        s.driveFor fuel (after.getD pool) c

end Script

inductive PhaseStep where
  | start (targets : List ShardTarget) (request : SearchRequest)
  | answer (probe : Nat) (result : ProbeResult)
  | abandon (probe : Nat)
  | runTask (task : Nat)
  | dropTask (task : Nat)
  | drive
  | shutdown
  | dropRuntime

/-- A coordinator among scripted collaborators. Calls that the coordinator makes while it is being called
are answered in place. -/
structure Phases where
  script : Script
  pool : Option Pool := none
  coordinator : Coordinator := {}

structure PhaseReport where
  events : List Event := []
  /-- Whether the step named a probe or a task that is no longer there. -/
  gone : Bool := false

namespace Phases

def keptTasks (s : Phases) : List Nat :=
  if s.pool.isSome then [] else s.coordinator.pendingTasks

/-- A step that makes one move. -/
def one (s : Phases) (m : Move) : Phases :=
  let (pool, coordinator) := s.script.move s.pool s.coordinator m
  { s with pool, coordinator }

/-- A step that makes one move, where `ids` still has the thing that it is about. -/
def oneOf (s : Phases) (ids : List Nat) (id : Nat) (m : Move) : Phases × Bool :=
  if id ∈ ids then (s.one m, false) else (s, true)

/-- A step that acts on the pool, where there is one. -/
def onPool (s : Phases) (act : Pool → Coordinator → Option Pool × Coordinator) : Phases :=
  match s.pool with
  | none => s
  | some pool =>
    let (pool, coordinator) := act pool s.coordinator
    { s with pool, coordinator }

def act (s : Phases) : PhaseStep → Phases × Bool
  | .start targets request => (s.one (.start targets request), false)
  | .answer probe result =>
    s.oneOf s.coordinator.openProbes probe (.answer probe result)
  | .abandon probe => s.oneOf s.coordinator.openProbes probe (.abandon probe)
  | .runTask task => s.oneOf s.keptTasks task (.run task)
  | .dropTask task => s.oneOf s.keptTasks task (.discard task)
  | .drive => (s.onPool fun pool c => s.script.driveFor pool.turnBudget pool c, false)
  | .shutdown =>
    (s.onPool fun pool c => (some (pool.shutdown false), c.log (.poolShutdown pool.queued)), false)
  | .dropRuntime =>
    (s.onPool fun pool c =>
      let (pool, dropped) := pool.dropRuntime
      dropped.foldl (fun (pool, c) task => s.script.move pool c (.discard task)) (some pool, c),
      false)

/-- Whether an event still shows when the runtime goes: only results do. -/
def isDelivery : Event → Bool
  | .delivered .. => true
  | _ => false

def deliveredPhase : Event → Nat
  | .delivered phase _ => phase
  | _ => 0

/-- Carries out a step, and shows what has happened since the last one. When the runtime goes, only
the results show, by phase. -/
def step (s : Phases) (step : PhaseStep) : Phases × PhaseReport :=
  let (s, gone) := s.act step
  let events := s.coordinator.trace.toList
  let shown :=
    match step with
    | .dropRuntime =>
      (events.filter isDelivery).mergeSort fun a b => deliveredPhase a ≤ deliveredPhase b
    | _ => events
  ({ s with coordinator := { s.coordinator with trace := #[] } }, { events := shown, gone })

end Phases
end Prefilter.Rehearsal
