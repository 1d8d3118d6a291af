import Prefilter.Phase.State

/-!
The steps of a coordinator. Collaborators drive it: they start phases, run or drop tasks, resolve or
drop listeners, and return from calls, at any time and in any order, also while a call of the
coordinator to one of them is under way. Each such move makes the coordinator act until it calls a
collaborator or has nothing more to do.
-/

namespace Prefilter

inductive Move where
  | start (targets : List ShardTarget) (request : SearchRequest)
  | run (task : Nat)
  | discard (task : Nat)
  | answer (probe : Nat) (result : ProbeResult)
  | abandon (probe : Nat)
  | accepted
  | refused (error : DispatchError)
  | connected (connection : Connection)
  | unreachable (error : ProbeError)
  | sent
  | unsent (error : ProbeError)
  | returned

/-- The coordinator after a move, and the call that it has made to a collaborator, if any. -/
structure Turn where
  coordinator : Coordinator
  call : Option Frame := none

/-- Whether two targets are the same shard of the same cluster. -/
def ShardTarget.sameIdentity (a b : ShardTarget) : Bool :=
  a.shard.ordinal == b.shard.ordinal && a.shard.index == b.shard.index && a.cluster == b.cluster

/-- Whether some target comes again further on. -/
def hasDuplicates : List ShardTarget → Bool
  | [] => false
  | t :: ts => ts.any t.sameIdentity || hasDuplicates ts

def startFault? (targets : List ShardTarget) (request : SearchRequest) : Option StartFault :=
  if hasDuplicates targets then some .duplicateTargets
  else if targets.isEmpty && request.sort.isSome then some .sortWithoutTargets
  else none

namespace Coordinator

/-- Control goes back to the collaborators. -/
def rest (c : Coordinator) : Turn := { coordinator := c }

def call (c : Coordinator) (f : Frame) : Turn :=
  { coordinator := { c with stack := f :: c.stack }, call := some f }

/-- Hands the task of a shard to the executor; past the last shard all tasks are handed over. -/
def submit (c : Coordinator) (phase slot : Nat) : Turn :=
  match c.target? phase slot with
  | none => c.rest
  | some _ => { c with tasks := c.tasks.push { phase, slot } }.call (.submitting c.tasks.size)

/-- Goes on after the result of a phase has been seen to. -/
def resume (c : Coordinator) (phase : Nat) : Caller → Turn
  | .entry => c.rest
  | .start slot => c.submit phase slot
  | .exhausted .. => c.rest

/-- Orders the outcomes and hands them to the next phase. -/
def complete (c : Coordinator) (phase : Nat) (caller : Caller) : Turn :=
  match c.phases[phase]? with
  | none => c.resume phase caller
  | some p =>
    if p.completed then (c.emit (.breach phase 0 .completedTwice)).resume phase caller
    else
      let c := p.openSlots.foldl (fun c slot => c.emit (.breach phase slot .missingOutcome)) c
      let result := c.policy.order p.outcomes p.request.sort
      let remarks := c.policy.remarks p.outcomes p.request.sort
      let c := remarks.foldl (fun c remark => c.log (.ordering remark)) c
      let c := c.log (.phaseComplete phase result.summary)
      let c := { c with
        phases := c.phases.modify phase fun p => { p with completed := true, result := some result } }
      (c.emit (.delivered phase result)).call (.delivering phase caller)

/-- Records the outcome of a shard if the attempt is its current one; the last outcome of a phase
completes it. -/
def finish (c : Coordinator) (a : Attempt) (outcome : Outcome) (caller : Caller) : Turn :=
  match c.phases[a.phase]?, c.slot? a.phase a.slot with
  | some p, some slot =>
    if slot.cursor = .copy a.copy then
      let c :=
        if slot.outcome.isSome then c.emit (.breach a.phase a.slot .outcomeRecordedTwice) else c
      let c :=
        if p.outstanding = 0 then c.emit (.breach a.phase a.slot .outstandingUnderflow) else c
      let c := c.modifySlot a.phase a.slot fun s =>
        { cursor := .done, outcome := s.outcome.or (some outcome) }
      let c := { c with
        phases := c.phases.modify a.phase fun p => { p with outstanding := p.outstanding - 1 } }
      if p.outstanding = 1 then c.complete a.phase caller else c.resume a.phase caller
    else (c.log (.superseded a)).resume a.phase caller
  | _, _ => c.resume a.phase caller

/-- Probes a copy of a shard. Beyond the last copy the shard has failed. -/
def dispatch (c : Coordinator) (a : Attempt) : Turn :=
  match c.target? a.phase a.slot with
  | none => c.rest
  | some target =>
    match target.copies[a.copy]? with
    | some _ => c.call (.connecting a)
    | none =>
      let notice : Notice :=
        if target.copies.isEmpty then .unassigned a.phase a.slot target
        else .copiesExhausted a.phase a.slot target
      (c.log notice).finish a .failure (.exhausted a.slot a.copy)

/-- An attempt has failed. If it was the current one of its shard, the next copy follows. -/
def fail (c : Coordinator) (a : Attempt) (error : ProbeError) : Turn :=
  match c.destination? a with
  | none => c.rest
  | some (target, node) =>
    let c := c.log (.attemptFailed a target node error)
    if c.isCurrent a then
      (c.modifySlot a.phase a.slot fun s => { s with cursor := .copy (a.copy + 1) }).dispatch a.next
    else c.rest

/-- What a listener does with a result. -/
def settle (c : Coordinator) (a : Attempt) (result : ProbeResult) : Turn :=
  match result with
  | .ok response => c.finish a response.outcome .entry
  | .error error => c.fail a error

def start (c : Coordinator) (targets : List ShardTarget) (request : SearchRequest) : Turn :=
  let c := c.log (.startSpan targets.length request.sort.isSome)
  match startFault? targets request with
  | some fault => (c.emit (.startRefused fault)).rest
  | none =>
    let phase := c.phases.size
    let c := c.log (.phaseSpan phase targets.length (request.sort.map (·.field)))
    let c := c.log (.phaseStarted phase)
    let c := { c with phases := c.phases.push (.ofTargets targets request) }
    if targets.isEmpty then c.complete phase .entry else c.submit phase 0

def send (c : Coordinator) (a : Attempt) (connection : Connection) : Turn :=
  match c.phases[a.phase]?, c.destination? a with
  | some p, some (target, node) =>
    let request := p.probeRequest target node
    let c := c.emit (.resolved a target.cluster node true)
    let c := c.emit (.sent c.probes.size a connection request)
    { c with probes := c.probes.push { attempt := a, connection, request } }.call
      (.sending c.probes.size)
  | _, _ => c.rest

def unreachable (c : Coordinator) (a : Attempt) (error : ProbeError) : Turn :=
  match c.destination? a with
  | none => c.rest
  | some (target, node) => (c.emit (.resolved a target.cluster node false)).fail a error

/-- The executor has refused the task of a shard; the next shard follows. -/
def refuse (c : Coordinator) (task : Dispatch) (error : DispatchError) : Turn :=
  let c :=
    match c.target? task.phase task.slot with
    | some target => c.log (.dispatchRefused task.phase task.slot target error)
    | none => c
  c.finish ⟨task.phase, task.slot, 0⟩ .failure (.start (task.slot + 1))

def discard (c : Coordinator) (task : Dispatch) : Turn :=
  let c :=
    match c.target? task.phase task.slot with
    | some target => c.log (.dispatchDropped task.phase task.slot target)
    | none => c
  c.finish ⟨task.phase, task.slot, 0⟩ .failure .entry

/-- Uses up a task, if it is pending. -/
def takeTask? (c : Coordinator) (task : Nat) : Option (Dispatch × Coordinator) :=
  match c.tasks[task]? with
  | some d =>
    if d.pending then
      some (d, { c with tasks := c.tasks.modify task fun d => { d with pending := false } })
    else none
  | none => none

/-- Resolves the listener of a probe, if it is unresolved. -/
def takeListener? (c : Coordinator) (probe : Nat) : Option (Attempt × Coordinator) :=
  match c.probes[probe]? with
  | some p =>
    if p.listener.resolved then none
    else
      some (p.attempt, { c with
        probes := c.probes.modify probe fun p => { p with listener := { resolved := true } } })
  | none => none

/-- One move. Moves that nobody can make are without effect: a task is run or dropped once, a listener
resolved or dropped once, and only the latest call can return. -/
def step (c : Coordinator) (m : Move) : Turn :=
  match m, c.stack with
  | .start targets request, _ => c.start targets request
  | .run task, _ =>
    match c.takeTask? task with
    | some (d, c) => c.dispatch ⟨d.phase, d.slot, 0⟩
    | none => c.rest
  | .discard task, _ =>
    match c.takeTask? task with
    | some (d, c) => c.discard d
    | none => c.rest
  | .answer probe result, _ =>
    match c.takeListener? probe with
    | some (a, c) => c.settle a result
    | none => c.rest
  | .abandon probe, _ =>
    match c.takeListener? probe with
    | some (a, c) => (c.log .listenerDropped).settle a (.error .listenerDropped)
    | none => c.rest
  | .accepted, .submitting task :: stack =>
    match c.tasks[task]? with
    | some d => { c with stack }.submit d.phase (d.slot + 1)
    | none => { c with stack }.rest
  | .refused error, .submitting task :: stack =>
    match c.tasks[task]? with
    | some d => { c with stack }.refuse d error
    | none => { c with stack }.rest
  | .connected connection, .connecting a :: stack => { c with stack }.send a connection
  | .unreachable error, .connecting a :: stack => { c with stack }.unreachable a error
  | .sent, .sending _ :: stack => { c with stack }.rest
  | .unsent error, .sending probe :: stack =>
    match c.probes[probe]? with
    | some p => { c with stack }.fail p.attempt error
    | none => { c with stack }.rest
  | .returned, .delivering phase caller :: stack => { c with stack }.resume phase caller
  | _, _ => c.rest

def run (c : Coordinator) (moves : List Move) : Coordinator :=
  moves.foldl (fun c m => (c.step m).coordinator) c

end Coordinator
end Prefilter
