import Prefilter.Dispatch.Pool
import Prefilter.Phase.Event
import Prefilter.Text.Utf8

namespace Prefilter.Rehearsal

mutual

inductive Job where
  | task (name : String) (acts : List JobAct)
deriving Inhabited

/-- What a running task does to the pool it runs on. -/
inductive JobAct where
  | shutdown
  | submit (j : Job)

end

namespace Job

def name : Job → String
  | task name _ => name

def acts : Job → List JobAct
  | task _ acts => acts

/-- A task that may close the pool and then submits some others. -/
def job (name : String) (stops : Bool) (children : List Job) : Job :=
  task name ((if stops then [.shutdown] else []) ++ children.map .submit)

end Job

mutual

/-- How many tasks there are, with all that they submit. -/
def Job.size : Job → Nat
  | .task _ acts => 1 + JobAct.sizes acts

def JobAct.size : JobAct → Nat
  | .shutdown => 0
  | .submit j => j.size

def JobAct.sizes : List JobAct → Nat
  | [] => 0
  | act :: acts => act.size + JobAct.sizes acts

end

inductive JobEvent where
  | log (notice : Notice)
  | accepted (name : String)
  | refused (name : String) (error : DispatchError)
  | dropped (name : String)
  /-- The task runs; so many tasks are queued and so many permits free meanwhile. -/
  | ran (name : String) (queued permits : Nat)
deriving DecidableEq

/-- Scripted tasks over a pool. While a task runs it may close the pool and submit tasks of its own. -/
structure Jobs where
  pool : Pool
  /-- The submitted tasks, by number. -/
  submitted : Array Job := #[]
  events : Array JobEvent := #[]

namespace Jobs

def emit (s : Jobs) (events : List JobEvent) : Jobs :=
  { s with events := s.events ++ events.toArray }

def nameOf (s : Jobs) (task : Nat) : String := ((s.submitted[task]?).map Job.name).getD ""

def submit (inside : Bool) (s : Jobs) (j : Job) : Jobs :=
  let (pool, admission) := s.pool.submit inside
  { s with pool, submitted := s.submitted.push j }.emit <|
    match admission with
    | .queued => [.accepted j.name]
    | .dropped => [.dropped j.name, .accepted j.name]
    | .refused error => [.dropped j.name, .refused j.name error]

def shutdown (inside : Bool) (s : Jobs) : Jobs :=
  { s with pool := s.pool.shutdown inside }.emit [.log (.poolShutdown s.pool.queued)]

/-- What a running task does next. -/
def act (s : Jobs) : JobAct → Jobs
  | .shutdown => s.shutdown true
  | .submit j => s.submit true j

def perform (s : Jobs) (task : Nat) : Jobs :=
  match s.submitted[task]? with
  | none => s
  | some j => j.acts.foldl act (s.emit [.ran j.name s.pool.queued s.pool.permits])

/-- Polls the future of a task; if it has a permit, the task runs to its end. -/
def poll (s : Jobs) (task : Nat) : Jobs :=
  let (pool, poll) := s.pool.poll task
  let s := { s with pool }
  match poll with
  | .starts =>
    let s := s.perform task
    { s with pool := s.pool.finish task }
  | .waits => s
  | .gaveUp => s.emit [.log .poolDropped, .dropped (s.nameOf task)]

def driveFor : Nat → Jobs → Jobs
  | 0, s => s
  | fuel + 1, s =>
    match s.pool.turn with
    | (pool, none) => { s with pool }
    | (pool, some task) => driveFor fuel ({ s with pool }.poll task)

/-- No future is polled more than twice, once when it is new and once more after it had to wait, and
the last turn finds none. -/
def turnBudget (s : Jobs) : Nat := 2 * s.submitted.foldl (fun n j => n + j.size) 0 + 1

/-- Polls ready futures until there are none, and takes the turns that are left of the drive. -/
def drive (s : Jobs) : Jobs :=
  let driven := driveFor s.turnBudget s
  { driven with pool := driven.pool.rest s.pool.turns }

/-- The runtime goes; the dropped tasks are shown by name. -/
def dropRuntime (s : Jobs) : Jobs :=
  let (pool, dropped) := s.pool.dropRuntime
  let names := (dropped.map s.nameOf).mergeSort fun a b => (Text.compareUtf8 a b).isLE
  { s with pool }.emit (names.map .dropped)

end Jobs
end Prefilter.Rehearsal
