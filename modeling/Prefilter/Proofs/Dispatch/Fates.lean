import Prefilter.Proofs.Dispatch.Occupancy
import Prefilter.Rehearsal.Jobs

namespace Prefilter.Rehearsal

/-- The tasks that a running task submits. -/
def JobAct.job? : JobAct → Option Job
  | shutdown => none
  | submit j => some j

def Job.submits (j : Job) : List Job := j.acts.filterMap JobAct.job?

/-- Events, each with the number of the task it is about. -/
abbrev JobLog := List (Option Nat × JobEvent)

def eventsOf (log : JobLog) (task : Nat) : List JobEvent :=
  log.filterMap fun entry => if entry.1 = some task then some entry.2 else none

/-- The tasks that ran, in the order in which they ran. -/
def ranIn (log : JobLog) : List Nat :=
  log.filterMap fun
    | (owner, .ran _ _ _) => owner
    | _ => none

/-- What becomes of an accepted or refused task, told by all its events. -/
inductive Fate (name : String) : List JobEvent → Prop where
  | refused (error : DispatchError) : Fate name [.dropped name, .refused name error]
  | ran (queued permits : Nat) : Fate name [.accepted name, .ran name queued permits]
  | dropped : Fate name [.accepted name, .dropped name]
  | droppedAtOnce : Fate name [.dropped name, .accepted name]

/-- The events of a task in each stage. -/
inductive Story (name : String) : Stage → List JobEvent → Prop where
  | queued {stage : Stage} (h : stage.isQueued = true) : Story name stage [.accepted name]
  | refused (error : DispatchError) :
      Story name .refused [.dropped name, .refused name error]
  | running (queued permits : Nat) :
      Story name .running [.accepted name, .ran name queued permits]
  | finished (queued permits : Nat) :
      Story name .finished [.accepted name, .ran name queued permits]
  | dropped : Story name .dropped [.accepted name, .dropped name]
  | droppedAtOnce : Story name .dropped [.dropped name, .accepted name]

variable {max task other : Nat} {inside : Bool} {log later : JobLog} {given : List Job}
  {s t u : Jobs} {j : Job} {name : String} {stage : Stage} {events : List JobEvent}

theorem eventsOf_append :
    eventsOf (log ++ later) task = eventsOf log task ++ eventsOf later task :=
  List.filterMap_append

theorem eventsOf_own : eventsOf (events.map (some task, ·)) task = events := by
  simp [eventsOf]

theorem eventsOf_others (hne : other ≠ task) :
    eventsOf (events.map (some other, ·)) task = [] := by
  simp [eventsOf, hne]

theorem mem_eventsOf {event : JobEvent} :
    event ∈ eventsOf log task ↔ (some task, event) ∈ log := by
  simp [eventsOf]

theorem ranIn_append : ranIn (log ++ later) = ranIn log ++ ranIn later :=
  List.filterMap_append

theorem mem_ranIn :
    task ∈ ranIn log ↔ ∃ name queued permits, (some task, .ran name queued permits) ∈ log := by
  simp only [ranIn, List.mem_filterMap]
  constructor
  · rintro ⟨⟨owner, event⟩, hmem, hran⟩
    cases event <;> simp at hran
    subst hran
    exact ⟨_, _, _, hmem⟩
  · rintro ⟨name, queued, permits, hmem⟩
    exact ⟨_, hmem, rfl⟩

namespace Story

theorem eq_of_queued (h : Story name stage events) (hqueued : stage.isQueued = true) :
    events = [.accepted name] := by
  rcases h with _ | _ | _ | _ | _ | _ <;> first | rfl | simp [Stage.isQueued] at hqueued

theorem of_queued {after : Stage} (h : Story name stage events) (hqueued : stage.isQueued = true)
    (hafter : after.isQueued = true) : Story name after events :=
  h.eq_of_queued hqueued ▸ .queued hafter

theorem finish (h : Story name .running events) : Story name .finished events := by
  rcases h with hqueued | _ | ⟨queued, permits⟩
  · simp [Stage.isQueued] at hqueued
  · exact .finished queued permits

theorem queued_iff (h : Story name stage events) :
    stage.isQueued = true ↔ events = [.accepted name] := by
  constructor
  · exact h.eq_of_queued
  · rcases h with hqueued | _ | _ | _ | _ | _ <;> simp_all

theorem fate (h : Story name stage events) (hqueued : stage.isQueued = false) :
    Fate name events := by
  rcases h with hstage | ⟨error⟩ | ⟨queued, permits⟩ | ⟨queued, permits⟩ | _ | _
  · simp [hstage] at hqueued
  · exact .refused error
  · exact .ran queued permits
  · exact .ran queued permits
  · exact .dropped
  · exact .droppedAtOnce

end Story

/-- What is in hand in the middle of an operation: futures taken out to be polled, the task that
runs, and the tasks that are still to be submitted. -/
structure Hand where
  futures : List Nat := []
  running : Option Nat := none
  jobs : List Job := []

namespace Jobs

def submitsOf (s : Jobs) (task : Nat) : List Job := ((s.submitted[task]?).map Job.submits).getD []

/-- A log of all that has happened, with what is in hand, when so many tasks were given from
outside. -/
structure Kept (max : Nat) (given : List Job) (hand : Hand) (log : JobLog) (s : Jobs) : Prop where
  pool : s.pool.Consistent max hand.futures
  size_eq : s.pool.stages.size = s.submitted.size
  running_iff : ∀ task, s.pool.stages[task]? = some .running ↔ hand.running = some task
  events_eq : log.map Prod.snd = s.events.toList
  notices : ∀ event, (none, event) ∈ log → ∃ notice, event = .log notice
  fresh : ∀ task, s.submitted.size ≤ task → eventsOf log task = []
  story : ∀ task j stage, s.submitted[task]? = some j → s.pool.stages[task]? = some stage →
    Story j.name stage (eventsOf log task)
  handed : (s.submitted.toList ++ hand.jobs).Perm (given ++ (ranIn log).flatMap s.submitsOf)

namespace Kept

variable {hand after : Hand} {pool : Pool}

theorem lt_of_mem_ranIn (h : s.Kept max given hand log) (hran : task ∈ ranIn log) :
    task < s.submitted.size := by
  by_contra hge
  obtain ⟨name, queued, permits, hmem⟩ := mem_ranIn.mp hran
  have := mem_eventsOf.mpr hmem
  simp [h.fresh task (by omega)] at this

/-- The pool goes on without a submission, with the events of `later`. -/
theorem extend (h : s.Kept max given hand log) (hpool : pool.Consistent max after.futures)
    (hsize : pool.stages.size = s.pool.stages.size)
    (hrunning : ∀ task, pool.stages[task]? = some .running ↔ after.running = some task)
    (hnotices : ∀ event, (none, event) ∈ later → ∃ notice, event = .log notice)
    (hlt : ∀ task event, (some task, event) ∈ later → task < s.submitted.size)
    (hstory : ∀ task j stage, s.submitted[task]? = some j → pool.stages[task]? = some stage →
      Story j.name stage (eventsOf log task ++ eventsOf later task))
    (hjobs : after.jobs.Perm (hand.jobs ++ (ranIn later).flatMap s.submitsOf)) :
    ({ s with pool }.emit (later.map Prod.snd)).Kept max given after (log ++ later) := by
  constructor
  case pool => exact hpool
  case size_eq => exact hsize.trans h.size_eq
  case running_iff => exact hrunning
  case events_eq => simp [emit, h.events_eq]
  case notices =>
    intro event hmem
    rcases List.mem_append.mp hmem with hmem | hmem
    · exact h.notices event hmem
    · exact hnotices event hmem
  case fresh =>
    intro task hge
    rw [eventsOf_append, h.fresh task hge, List.nil_append, List.eq_nil_iff_forall_not_mem]
    intro event hmem
    have := hlt task event (mem_eventsOf.mp hmem)
    exact absurd hge (Nat.not_le_of_lt this)
  case story =>
    intro task j stage hj hstage
    rw [eventsOf_append]
    exact hstory task j stage hj hstage
  case handed =>
    rw [ranIn_append, List.flatMap_append, ← List.append_assoc]
    refine List.Perm.trans ?_ (List.Perm.append_right _ h.handed)
    rw [List.append_assoc]
    exact List.Perm.append_left _ hjobs

theorem submit (h : s.Kept max given hand log) (hjobs : hand.jobs = j :: after.jobs)
    (hfutures : after.futures = hand.futures) (hrunning : after.running = hand.running) :
    ∃ later, (s.submit inside j).Kept max given after (log ++ later) := by
  have hstages := @Pool.submit_stages s.pool inside
  have hpool := @Pool.Consistent.submit s.pool max inside hand.futures h.pool
  generalize hresult : s.pool.submit inside = result at hstages hpool
  obtain ⟨pool, admission⟩ := result
  obtain ⟨events, hevents, hstory, hran⟩ : ∃ events,
      s.submit inside j = { s with pool, submitted := s.submitted.push j }.emit events ∧
      Story j.name admission.stage events ∧
      ∀ name queued permits, .ran name queued permits ∉ events := by
    rcases admission with _ | _ | error
    · exact ⟨[.accepted j.name], by simp [Jobs.submit, hresult], .queued rfl, by simp⟩
    · exact ⟨[.dropped j.name, .accepted j.name], by simp [Jobs.submit, hresult], .droppedAtOnce,
        by simp⟩
    · exact ⟨[.dropped j.name, .refused j.name error], by simp [Jobs.submit, hresult],
        .refused error, by simp⟩
  refine ⟨events.map (some s.submitted.size, ·), hevents ▸ ?_⟩
  dsimp only at hstages
  constructor
  case pool => exact hfutures ▸ hpool
  case size_eq => simp [emit, hstages, h.size_eq]
  case running_iff =>
    intro task
    rw [hrunning, ← h.running_iff task]
    simp only [emit, hstages, Array.getElem?_push]
    split
    · subst task
      have : s.pool.stages[s.pool.stages.size]? = none := by simp
      rw [this]
      cases admission <;> simp [Admission.stage]
    · rfl
  case events_eq => simp [emit, h.events_eq, Function.comp_def]
  case notices =>
    intro event hmem
    exact h.notices event (by simpa using hmem)
  case fresh =>
    intro task hge
    have hge : s.submitted.size + 1 ≤ task := by simpa [emit] using hge
    rw [eventsOf_append, h.fresh task (by omega), eventsOf_others (by omega), List.append_nil]
  case story =>
    intro task j' stage hj hstage
    simp only [emit, hstages, Array.getElem?_push, h.size_eq] at hj hstage
    rw [eventsOf_append]
    split at hj
    · subst task
      obtain rfl : j = j' := by simpa using hj
      obtain rfl : admission.stage = stage := by simpa using hstage
      rw [h.fresh _ (Nat.le_refl _), eventsOf_own]
      exact hstory
    · rename_i hne
      rw [if_neg hne] at hstage
      rw [eventsOf_others (Ne.symm hne), List.append_nil]
      exact h.story task j' stage hj hstage
  case handed =>
    have hnone : ranIn (events.map (some s.submitted.size, ·)) = [] := by
      rw [List.eq_nil_iff_forall_not_mem]
      intro task hmem
      obtain ⟨name, queued, permits, hmem⟩ := mem_ranIn.mp hmem
      simp only [List.mem_map, Prod.mk.injEq] at hmem
      obtain ⟨event, hmem, -, rfl⟩ := hmem
      exact hran _ _ _ hmem
    have hsame : (ranIn log).flatMap
        ({ s with pool, submitted := s.submitted.push j }.emit events).submitsOf =
        (ranIn log).flatMap s.submitsOf := by
      apply List.flatMap_congr
      intro task hran
      have := h.lt_of_mem_ranIn hran
      simp [submitsOf, emit, Array.getElem?_push, Nat.ne_of_lt this]
    rw [ranIn_append, hnone, List.append_nil, hsame]
    refine List.Perm.trans (List.Perm.of_eq ?_) h.handed
    simp [emit, hjobs]

theorem shutdown (h : s.Kept max given hand log) :
    ∃ later, (s.shutdown inside).Kept max given hand (log ++ later) := by
  refine ⟨[(none, .log (.poolShutdown s.pool.queued))], h.extend h.pool.shutdown ?_ ?_ ?_ ?_ ?_ ?_⟩
  · rw [Pool.shutdown_stages]
  · rw [Pool.shutdown_stages]
    exact h.running_iff
  · simp
  · simp
  · rw [Pool.shutdown_stages]
    intro task j stage hj hstage
    simpa [eventsOf] using h.story task j stage hj hstage
  · simp [ranIn]

theorem acts {acts : List JobAct} (h : s.Kept max given hand log)
    (hjobs : hand.jobs = acts.filterMap JobAct.job? ++ after.jobs)
    (hfutures : after.futures = hand.futures) (hrunning : after.running = hand.running) :
    ∃ later, (acts.foldl act s).Kept max given after (log ++ later) := by
  induction acts generalizing s hand log with
  | nil =>
      obtain rfl : hand = after := by
        cases hand
        cases after
        simp_all
      exact ⟨[], by simpa using h⟩
  | cons next acts ih =>
      rw [List.foldl_cons]
      rcases next with _ | j
      · obtain ⟨first, hfirst⟩ := @shutdown max true log given s hand h
        obtain ⟨rest, hrest⟩ := ih hfirst (by simpa [List.filterMap_cons, JobAct.job?] using hjobs)
          hfutures hrunning
        exact ⟨first ++ rest, by simpa [act] using hrest⟩
      · have hrest : hand.jobs = j :: (acts.filterMap JobAct.job? ++ after.jobs) := by
          simpa [List.filterMap_cons, JobAct.job?] using hjobs
        obtain ⟨first, hfirst⟩ := @submit max true log given s j hand
          { hand with jobs := acts.filterMap JobAct.job? ++ after.jobs } h hrest rfl rfl
        obtain ⟨rest, hrest⟩ := ih hfirst rfl hfutures hrunning
        exact ⟨first ++ rest, by simpa [act] using hrest⟩

theorem finish (h : s.Kept max given { running := some task } log) :
    ({ s with pool := s.pool.finish task } : Jobs).Kept max given {} log := by
  have hrunning := (h.running_iff task).mpr rfl
  have hpool := h.pool.finish hrunning
  have hcases := h.pool.finish_stage hrunning
  refine ⟨hpool, (Pool.finish_size hrunning).trans h.size_eq, ?_, h.events_eq, h.notices, h.fresh,
    ?_, h.handed⟩
  · intro other
    obtain ⟨rfl, hstage⟩ | ⟨hne, -, hstage⟩ | ⟨hne, hstage⟩ := hcases other
    · simp [hstage]
    · simp [hstage]
    · simpa [hstage, Ne.symm hne] using h.running_iff other
  · intro other j stage hj hafter
    obtain ⟨rfl, hstage⟩ | ⟨hne, hbefore, hstage⟩ | ⟨hne, hstage⟩ := hcases other
    · obtain rfl : Stage.finished = stage := by simpa [hstage] using hafter
      exact (h.story other j .running hj hrunning).finish
    · obtain rfl : Stage.granted = stage := by simpa [hstage] using hafter
      exact (h.story other j .waiting hj hbefore).of_queued rfl rfl
    · exact h.story other j stage hj (hstage ▸ hafter)

theorem move {pool : Pool} {new : Stage} (h : s.Kept max given { futures := [task] } log)
    (hpool : pool.Consistent max []) (hstages : pool.stages = (s.pool.setStage task new).stages)
    (howners : ∀ owner event, (owner, event) ∈ later →
      owner = some task ∨ owner = none ∧ ∃ notice, event = .log notice)
    (hstory : ∀ j, s.submitted[task]? = some j →
      Story j.name new (.accepted j.name :: eventsOf later task))
    (hrunning : ∀ other, new = .running ∧ task = other ↔ after.running = some other)
    (hfutures : after.futures = []) (hjobs : after.jobs.Perm ((ranIn later).flatMap s.submitsOf)) :
    ({ s with pool }.emit (later.map Prod.snd)).Kept max given after (log ++ later) := by
  obtain ⟨old, hold, hqueued⟩ := h.pool.isQueued_of_held
  have hlt : task < s.submitted.size := by
    obtain ⟨hlt, -⟩ := Array.getElem?_eq_some_iff.mp hold
    exact h.size_eq ▸ hlt
  have hafter (other : Nat) : pool.stages[other]? =
      if task = other then some new else s.pool.stages[other]? := by
    rw [hstages, Pool.stages_setStage hold]
  refine h.extend (hfutures ▸ hpool) (by simp [hstages]) ?_ ?_ ?_ ?_ (by simpa using hjobs)
  · intro other
    rw [hafter, ← hrunning]
    split
    · simp [*]
    · simpa [*] using h.running_iff other
  · intro event hmem
    rcases howners none event hmem with howner | ⟨-, hnotice⟩
    · contradiction
    · exact hnotice
  · intro other event hmem
    rcases howners (some other) event hmem with howner | ⟨howner, -⟩
    · obtain rfl : other = task := by simpa using howner
      exact hlt
    · contradiction
  · intro other j stage hj hstage
    rw [hafter] at hstage
    split at hstage
    · subst other
      obtain rfl : new = stage := by simpa using hstage
      rw [(h.story task j old hj hold).eq_of_queued hqueued]
      exact hstory j hj
    · rename_i hne
      have hnil : eventsOf later other = [] := by
        rw [List.eq_nil_iff_forall_not_mem]
        intro event hmem
        rcases howners (some other) event (mem_eventsOf.mp hmem) with howner | ⟨howner, -⟩
        · exact hne (by simpa using howner.symm)
        · contradiction
      rw [hnil, List.append_nil]
      exact h.story other j stage hj hstage

theorem perform {pool : Pool} (h : s.Kept max given { futures := [task] } log)
    (hpool : pool.Consistent max [])
    (hstages : pool.stages = (s.pool.setStage task .running).stages) :
    ∃ later, (({ s with pool } : Jobs).perform task).Kept max given { running := some task }
      (log ++ later) := by
  obtain ⟨old, hold, -⟩ := h.pool.isQueued_of_held
  obtain ⟨hlt, -⟩ := Array.getElem?_eq_some_iff.mp hold
  rw [h.size_eq] at hlt
  have hj : s.submitted[task]? = some s.submitted[task] := Array.getElem?_eq_getElem hlt
  generalize s.submitted[task] = j at hj
  have hstart := @move max task log [(some task, .ran j.name pool.queued pool.permits)] given s
    { running := some task, jobs := j.submits } pool .running h hpool hstages (by simp) (by
      intro j' hj'
      obtain rfl : j = j' := by simpa [hj] using hj'
      simpa [eventsOf] using Story.running pool.queued pool.permits) (by simp) rfl (by
      simp [ranIn, submitsOf, hj])
  obtain ⟨rest, hacts⟩ := @acts max _ given _ _ { running := some task } j.acts hstart
    (by simp [Job.submits]) rfl rfl
  refine ⟨(some task, .ran j.name pool.queued pool.permits) :: rest, ?_⟩
  simpa [Jobs.perform, hj] using hacts

theorem poll (h : s.Kept max given { futures := [task] } log) :
    ∃ later, (s.poll task).Kept max given {} (log ++ later) := by
  have hpool := h.pool.poll
  have hpolled := h.pool.polled
  unfold Jobs.poll
  generalize s.pool.poll task = result at hpool hpolled
  rcases hpolled with ⟨hstage, hopen, hfree⟩ | ⟨hstage, hopen⟩ | ⟨hstage, hopen, hfree⟩ |
    ⟨hstage, hqueued, hclosed⟩
  · obtain ⟨later, hran⟩ := h.perform hpool rfl
    exact ⟨later, hran.finish⟩
  · obtain ⟨later, hran⟩ := h.perform hpool rfl
    exact ⟨later, hran.finish⟩
  · have hwaits := @move max task log [] given s {} _ .waiting h hpool rfl (by simp)
      (fun j _ => .queued rfl) (by simp) rfl (by simp [ranIn])
    exact ⟨[], by simpa [emit] using hwaits⟩
  · refine ⟨[(none, .log .poolDropped), (some task, .dropped (s.nameOf task))], ?_⟩
    refine h.move hpool rfl ?_ ?_ (by simp) rfl (by simp [ranIn])
    · intro owner event hmem
      simp only [List.mem_cons, Prod.mk.injEq, List.not_mem_nil, or_false] at hmem
      rcases hmem with ⟨rfl, rfl⟩ | ⟨rfl, rfl⟩
      · exact .inr ⟨rfl, _, rfl⟩
      · exact .inl rfl
    · intro j hj
      simpa [eventsOf, nameOf, hj] using Story.dropped

theorem turn (h : s.Kept max given {} log) :
    ({ s with pool := s.pool.turn.1 } : Jobs).Kept max given
      { futures := s.pool.turn.2.toList } log := by
  have hstages : s.pool.turn.1.stages = s.pool.stages := by
    obtain ⟨-, -, hturn⟩ | ⟨task, inner, outer, -, hturn⟩ := s.pool.turn_cases <;> rw [hturn]
  refine ⟨h.pool.turn, ?_, ?_, h.events_eq, h.notices, h.fresh, ?_, h.handed⟩
  · simpa [hstages] using h.size_eq
  · simpa [hstages] using h.running_iff
  · simpa [hstages] using h.story

theorem driveFor (fuel : Nat) (h : s.Kept max given {} log) :
    ∃ later, (s.driveFor fuel).Kept max given {} (log ++ later) := by
  induction fuel generalizing s log with
  | zero => exact ⟨[], by simpa [Jobs.driveFor] using h⟩
  | succ fuel ih =>
      have hturn := h.turn
      rw [Jobs.driveFor]
      generalize s.pool.turn = result at hturn
      obtain ⟨pool, _ | task⟩ := result
      · exact ⟨[], by simpa using hturn⟩
      · obtain ⟨first, hpoll⟩ := hturn.poll
        obtain ⟨rest, hrest⟩ := ih hpoll
        exact ⟨first ++ rest, by simpa using hrest⟩

theorem drive (h : s.Kept max given {} log) :
    ∃ later, s.drive.Kept max given {} (log ++ later) := by
  obtain ⟨later, hdriven⟩ := h.driveFor s.turnBudget
  refine ⟨later, ⟨?_, hdriven.size_eq, hdriven.running_iff, hdriven.events_eq, hdriven.notices,
    hdriven.fresh, hdriven.story, hdriven.handed⟩⟩
  have hpool := hdriven.pool
  exact ⟨hpool.futures_perm, hpool.queued_eq, hpool.queued_le, hpool.permits_eq,
    hpool.line_waiting, hpool.waiting_line, hpool.line_stuck, hpool.dead⟩

end Kept

theorem eventsOf_map {tasks : List Nat} (hnodup : tasks.Nodup) (event : Nat → JobEvent) :
    eventsOf (tasks.map fun task => (some task, event task)) task =
      if task ∈ tasks then [event task] else [] := by
  induction tasks with
  | nil => rfl
  | cons first tasks ih =>
      obtain ⟨hfirst, htasks⟩ := List.nodup_cons.mp hnodup
      have hcons : eventsOf ((first :: tasks).map fun task => (some task, event task)) task =
          (if first = task then [event first] else []) ++
            eventsOf (tasks.map fun task => (some task, event task)) task := by
        by_cases heq : first = task <;> simp [eventsOf, heq]
      rw [hcons, ih htasks]
      by_cases heq : first = task
      · subst heq
        simp [hfirst]
      · simp [heq, Ne.symm heq]

theorem Kept.dropRuntime (h : s.Kept max given {} log) :
    ∃ later, s.dropRuntime.Kept max given {} (log ++ later) := by
  let before (a b : String) : Bool := (Text.compareUtf8 a b).isLE
  let tasks := s.pool.queuedTasks.mergeSort fun a b => before (s.nameOf a) (s.nameOf b)
  have htasks : tasks.Perm s.pool.queuedTasks := List.mergeSort_perm _ _
  have hnames : tasks.map s.nameOf = (s.pool.queuedTasks.map s.nameOf).mergeSort before :=
    List.map_mergeSort fun _ _ _ _ => rfl
  have hstages (task : Nat) : s.pool.dropRuntime.1.stages[task]? =
      (s.pool.stages[task]?).map fun stage => if stage.isQueued then .dropped else stage := by
    simp [Pool.dropRuntime]
  have hmem (task : Nat) : task ∈ tasks ↔ task ∈ s.pool.queuedTasks := htasks.mem_iff
  let later : JobLog := tasks.map fun task => (some task, .dropped (s.nameOf task))
  have hlater (task : Nat) : eventsOf later task =
      if task ∈ tasks then [.dropped (s.nameOf task)] else [] :=
    eventsOf_map (htasks.nodup_iff.mpr s.pool.nodup_queuedTasks) _
  have hkept : ({ s with pool := s.pool.dropRuntime.1 }.emit (later.map Prod.snd)).Kept max given {}
      (log ++ later) := by
    refine h.extend h.pool.dropRuntime (by simp [Pool.dropRuntime]) ?_ (by simp [later]) ?_ ?_ ?_
    · intro task
      rw [hstages, ← h.running_iff]
      rcases s.pool.stages[task]? with _ | stage
      · rfl
      · cases stage <;> simp [Stage.isQueued]
    · intro task event hevent
      have htask : task ∈ tasks := by
        simp only [later, List.mem_map, Prod.mk.injEq, Option.some.injEq] at hevent
        obtain ⟨_, htask, rfl, -⟩ := hevent
        exact htask
      obtain ⟨stage, hstage, -⟩ := Pool.mem_queuedTasks.mp ((hmem task).mp htask)
      obtain ⟨hlt, -⟩ := Array.getElem?_eq_some_iff.mp hstage
      exact h.size_eq ▸ hlt
    · intro task j stage hj hstage
      rw [hstages] at hstage
      obtain ⟨old, hold, rfl⟩ := Option.map_eq_some_iff.mp hstage
      have hstory := h.story task j old hj hold
      by_cases hqueued : old.isQueued = true
      · have htask := (hmem task).mpr (Pool.mem_queuedTasks.mpr ⟨old, hold, hqueued⟩)
        rw [hlater, if_pos htask, hstory.eq_of_queued hqueued, if_pos hqueued]
        simpa [nameOf, hj] using Story.dropped
      · have htask : task ∉ tasks := by
          rw [hmem, Pool.mem_queuedTasks]
          rintro ⟨_, hother, hq⟩
          obtain rfl : old = _ := by simpa [hold] using hother
          exact hqueued hq
        rw [hlater, if_neg htask, List.append_nil, if_neg hqueued]
        exact hstory
    · have : ranIn later = [] := by
        simp [later, ranIn]
      simp [this]
  refine ⟨later, ?_⟩
  have hevents : later.map Prod.snd =
      ((s.pool.queuedTasks.map s.nameOf).mergeSort before).map .dropped := by
    rw [← hnames]
    simp [later]
  rw [hevents] at hkept
  exact hkept

end Jobs
end Prefilter.Rehearsal
