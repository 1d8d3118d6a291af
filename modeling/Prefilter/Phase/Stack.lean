import Prefilter.Dispatch.Pool
import Prefilter.Phase.Play
import Prefilter.Probe.Carrier

/-!
A coordinator with a pool as its executor and a carrier as its transport. Nothing happens by itself:
the runtime is driven, the clock is moved, the pool is closed and the runtime dropped from outside.
-/

namespace Prefilter

namespace Admission

def moves (task : Nat) : Admission → List Move
  | queued => [.accepted]
  | dropped => [.discard task, .accepted]
  | refused error => [.discard task, .refused error]

end Admission

/-- The nodes behind the transport, whose state is `σ`. -/
structure Backend (σ : Type) where
  directory : Directory
  delay : Connection → ProbeRequest → Nat
  /-- What a probe comes to; one without a result is lost. -/
  answer : σ → Connection → ProbeRequest → σ × Option ProbeResult

structure Runtime (σ : Type) where
  pool : Pool
  carrier : Carrier (Connection × ProbeRequest)
  backend : σ

structure Stack (σ : Type) where
  runtime : Runtime σ
  coordinator : Coordinator

namespace Backend

variable {σ : Type}

/-- How executor, resolver, transport and next phase answer a call. -/
def reply (b : Backend σ) (r : Runtime σ) (c : Coordinator) : Frame → Runtime σ × List Move
  | .submitting task =>
    let (pool, admission) := r.pool.submit false
    ({ r with pool }, admission.moves task)
  | .connecting attempt =>
    match c.destination? attempt with
    | none => (r, [])
    | some (target, node) =>
      match b.directory.resolve target.cluster node with
      | .ok connection => (r, [.connected connection])
      | .error error => (r, [.unreachable error])
  | .sending probe =>
    match c.probes[probe]? with
    | none => (r, [])
    | some p =>
      match r.carrier.send probe (p.connection, p.request) (b.delay p.connection p.request) with
      | (carrier, true) => ({ r with carrier }, [.sent])
      | (carrier, false) => ({ r with carrier }, [.abandon probe, .sent])
  | .delivering .. => (r, [.returned])

end Backend

namespace Stack

variable {σ : Type}

def move (b : Backend σ) (s : Stack σ) (m : Move) : Stack σ :=
  let (runtime, coordinator) := s.coordinator.play b.reply s.runtime m
  { runtime, coordinator }

def start (b : Backend σ) (s : Stack σ) (targets : List ShardTarget) (request : SearchRequest) :
    Stack σ :=
  s.move b (.start targets request)

def setPool (s : Stack σ) (pool : Pool) : Stack σ := { s with runtime := { s.runtime with pool } }

def poll (b : Backend σ) (s : Stack σ) (task : Nat) : Stack σ :=
  match s.runtime.pool.poll task with
  | (pool, .starts) =>
    let s := (s.setPool pool).move b (.run task)
    s.setPool (s.runtime.pool.finish task)
  | (pool, .waits) => s.setPool pool
  | (pool, .gaveUp) => (s.setPool pool).move b (.discard task)

def driveFor (b : Backend σ) : Nat → Stack σ → Stack σ
  | 0, s => s
  | fuel + 1, s =>
    match s.runtime.pool.turn with
    | (pool, none) => s.setPool pool
    | (pool, some task) => driveFor b fuel ((s.setPool pool).poll b task)

/-- Polls the futures of all tasks until none is ready. -/
def drive (b : Backend σ) (s : Stack σ) : Stack σ := driveFor b s.runtime.pool.turnBudget s

/-- Resolves a probe that is due; the listener of a lost one is dropped. -/
def land (b : Backend σ) (s : Stack σ) (f : Flight (Connection × ProbeRequest)) : Stack σ :=
  let (connection, request) := f.load
  if f.late then
    s.move b (.answer f.id s.runtime.carrier.lateResult)
  else
    let (backend, result) := b.answer s.runtime.backend connection request
    let s := { s with runtime := { s.runtime with backend } }
    match result with
    | some result => s.move b (.answer f.id result)
    | none => s.move b (.abandon f.id)

/-- Resolves the probes that are due by some time, while a condition holds. -/
def landWhile (b : Backend σ) (going : Coordinator → Bool) (time : Nat) : Nat → Stack σ → Stack σ
  | 0, s => s
  | fuel + 1, s =>
    if going s.coordinator then
      match s.runtime.carrier.land? time with
      | none => s
      | some (f, carrier) =>
        let s := { s with runtime := { s.runtime with carrier } }
        landWhile b going time fuel (s.land b f)
    else s

/-- How many attempts all phases together can make. -/
def attemptBudget (c : Coordinator) : Nat :=
  c.phases.foldl (fun n p => p.targets.foldl (fun n t => n + t.copies.length) n) 0

/-- Sets the clock to a time that no probe under way is due before. -/
def setNow (s : Stack σ) (now : Nat) : Stack σ :=
  { s with runtime := { s.runtime with carrier := { s.runtime.carrier with now } } }

/-- Moves the clock on; probes that come due are resolved on the way, also those sent meanwhile. -/
def advance (b : Backend σ) (s : Stack σ) (ms : Nat) : Stack σ :=
  let time := s.runtime.carrier.now + ms
  (s.landWhile b (fun _ => true) time (attemptBudget s.coordinator)).setNow time

def result? (s : Stack σ) (phase : Nat) : Option OrderedShards :=
  s.coordinator.phases[phase]?.bind (·.result)

/-- Moves the clock on until a phase has its result, but no further than `ms`. What comes due at the
very end of that time comes too late. -/
def await (b : Backend σ) (s : Stack σ) (phase ms : Nat) : Stack σ :=
  let time := s.runtime.carrier.now + ms
  let unfinished (c : Coordinator) : Bool := (c.phases[phase]?.bind (·.result)).isNone
  let s := s.landWhile b unfinished (time - 1) (attemptBudget s.coordinator)
  if (s.result? phase).isSome then s else s.setNow time

def shutdown (s : Stack σ) : Stack σ := s.setPool (s.runtime.pool.shutdown false)

/-- The runtime goes: queued tasks and probes under way are dropped, and whatever these lead to finds
no runtime. -/
def dropRuntime (b : Backend σ) (s : Stack σ) : Stack σ :=
  let (pool, tasks) := s.runtime.pool.dropRuntime
  let (carrier, flights) := s.runtime.carrier.dropRuntime
  let s := { s with runtime := { s.runtime with pool, carrier } }
  let s := tasks.foldl (fun s task => s.move b (.discard task)) s
  flights.foldl (fun s f => s.move b (.abandon f.id)) s

end Stack
end Prefilter
