import Mathlib.Algebra.BigOperators.Fin
import Mathlib.Algebra.Order.BigOperators.Group.Finset
import Prefilter.Proofs.Dispatch.Fates

namespace Prefilter

/-- How often the future of a task in this stage is polled at most. -/
def Stage.polls : Stage → Nat
  | spawned => 2
  | waiting | granted => 1
  | _ => 0

namespace Rehearsal

variable {max task : Nat} {inside : Bool} {log : JobLog} {given : List Job} {s t : Jobs} {j : Job}
  {stage old new : Stage}

theorem Job.size_eq (j : Job) : j.size = 1 + JobAct.sizes j.acts := by
  cases j
  rfl

/-- The polls of a task from this stage on, and of all that it submits. -/
def Job.work (stage : Stage) (j : Job) : Nat :=
  if stage.isQueued then stage.polls + 2 * JobAct.sizes j.acts else 0

theorem Job.work_le (stage : Stage) (j : Job) : j.work stage ≤ 2 * j.size := by
  rw [j.size_eq]
  cases stage <;> simp [work, Stage.isQueued, Stage.polls] <;> omega

theorem Job.lt_work (hqueued : stage.isQueued = true) : 2 * JobAct.sizes j.acts < j.work stage := by
  cases stage <;> simp [Stage.isQueued] at hqueued <;> simp [work, Stage.isQueued, Stage.polls]

namespace Jobs

def workOf (s : Jobs) (task : Nat) : Nat :=
  match s.submitted[task]?, s.pool.stages[task]? with
  | some j, some stage => j.work stage
  | _, _ => 0

def due (s : Jobs) : Nat := ∑ task ∈ Finset.range s.submitted.size, s.workOf task

theorem workOf_eq (hj : s.submitted[task]? = some j) (hstage : s.pool.stages[task]? = some stage) :
    s.workOf task = j.work stage := by
  simp [workOf, hj, hstage]

theorem due_lt_turnBudget (s : Jobs) : s.due < s.turnBudget := by
  have hsizes : s.submitted.foldl (fun n j => n + j.size) 0 =
      ∑ i : Fin s.submitted.size, s.submitted[i].size := by
    rw [← List.sum_ofFn, ← Array.foldl_toList, List.sum_eq_foldl, ← List.foldl_map]
    congr 1
    exact List.ext_getElem (by simp) (by simp)
  rw [turnBudget, hsizes, due, Finset.sum_range, Finset.mul_sum, Nat.lt_succ_iff]
  apply Finset.sum_le_sum
  intro i _
  have hi : s.submitted[i.val]? = some s.submitted[i] := by simp
  rcases hstage : s.pool.stages[i.val]? with _ | stage
  · simp [workOf, hstage]
  · rw [workOf_eq hi hstage]
    exact Job.work_le _ _

theorem due_submit_le (hsize : s.pool.stages.size = s.submitted.size) :
    (s.submit inside j).due ≤ s.due + 2 * j.size := by
  have hstages : (s.submit inside j).pool.stages =
      s.pool.stages.push (s.pool.submit inside).2.stage := Pool.submit_stages
  have hsubmitted : (s.submit inside j).submitted = s.submitted.push j := rfl
  rw [due, hsubmitted, Array.size_push, Finset.sum_range_succ]
  apply Nat.add_le_add
  · apply Nat.le_of_eq
    apply Finset.sum_congr rfl
    intro task htask
    have hne : task ≠ s.submitted.size := Nat.ne_of_lt (Finset.mem_range.mp htask)
    simp [workOf, hstages, hsubmitted, Array.getElem?_push, hsize, hne]
  · rw [@workOf_eq _ (s.submit inside j) j (s.pool.submit inside).2.stage (by simp [hsubmitted])
      (by simp [hstages, ← hsize])]
    exact Job.work_le _ _

theorem due_shutdown (s : Jobs) : (s.shutdown inside).due = s.due := by
  simp [due, workOf, shutdown, emit, Pool.shutdown_stages]

theorem due_acts_le {acts : List JobAct} (hsize : s.pool.stages.size = s.submitted.size) :
    (acts.foldl act s).due ≤ s.due + 2 * JobAct.sizes acts := by
  induction acts generalizing s with
  | nil => exact Nat.le_refl _
  | cons next acts ih =>
      rcases next with _ | j
      · have hrest := @ih (s.shutdown true)
          (by simpa [shutdown, emit, Pool.shutdown_stages] using hsize)
        rw [due_shutdown] at hrest
        simpa [act, JobAct.sizes, JobAct.size] using hrest
      · have hrest := @ih (s.submit true j)
          (by simp [submit, emit, Pool.submit_stages, hsize])
        have hfirst := @due_submit_le true s j hsize
        simp only [List.foldl_cons, act, JobAct.sizes, JobAct.size]
        omega

theorem due_setStage (hj : s.submitted[task]? = some j) (hold : s.pool.stages[task]? = some old)
    (hsubmitted : t.submitted = s.submitted)
    (hstages : t.pool.stages = (s.pool.setStage task new).stages) :
    t.due + j.work old = s.due + j.work new := by
  have hmem : task ∈ Finset.range s.submitted.size := by
    obtain ⟨hlt, -⟩ := Array.getElem?_eq_some_iff.mp hj
    exact Finset.mem_range.mpr hlt
  have hothers : ∑ other ∈ (Finset.range s.submitted.size).erase task, t.workOf other =
      ∑ other ∈ (Finset.range s.submitted.size).erase task, s.workOf other := by
    apply Finset.sum_congr rfl
    intro other hother
    have hne : task ≠ other := Ne.symm (Finset.ne_of_mem_erase hother)
    simp [workOf, hsubmitted, hstages, Pool.stages_setStage hold, hne]
  have hs : s.workOf task = j.work old := workOf_eq hj hold
  have ht : t.workOf task = j.work new :=
    workOf_eq (hsubmitted ▸ hj) (by simp [hstages, Pool.stages_setStage hold])
  rw [due, due, hsubmitted, ← Finset.add_sum_erase _ _ hmem, ← Finset.add_sum_erase _ s.workOf hmem,
    hothers, hs, ht]
  omega

theorem due_lt_of_setStage (hj : s.submitted[task]? = some j)
    (hold : s.pool.stages[task]? = some old) (hsubmitted : t.submitted = s.submitted)
    (hstages : t.pool.stages = (s.pool.setStage task new).stages) (hlt : j.work new < j.work old) :
    t.due < s.due := by
  have := due_setStage hj hold hsubmitted hstages
  omega

theorem due_finish {hand : Hand} (h : s.Kept max given hand log)
    (hstage : s.pool.stages[task]? = some .running) :
    ({ s with pool := s.pool.finish task } : Jobs).due = s.due := by
  apply Finset.sum_congr rfl
  intro other _
  rcases hj : s.submitted[other]? with _ | j
  · simp [workOf, hj]
  · obtain ⟨rfl, hafter⟩ | ⟨-, hbefore, hafter⟩ | ⟨-, hafter⟩ := h.pool.finish_stage hstage other
    · simp [workOf, hj, hafter, hstage, Job.work, Stage.isQueued]
    · simp [workOf, hj, hafter, hbefore, Job.work, Stage.isQueued, Stage.polls]
    · simp [workOf, hj, hafter]

namespace Kept

theorem due_perform_lt {pool : Pool} (h : s.Kept max given { futures := [task] } log)
    (hpool : pool.Consistent max [])
    (hstages : pool.stages = (s.pool.setStage task .running).stages) :
    ({ ({ s with pool } : Jobs).perform task with
      pool := (({ s with pool } : Jobs).perform task).pool.finish task } : Jobs).due < s.due := by
  obtain ⟨old, hold, hqueued⟩ := h.pool.isQueued_of_held
  obtain ⟨j, hj⟩ : ∃ j, s.submitted[task]? = some j := by
    obtain ⟨hlt, -⟩ := Array.getElem?_eq_some_iff.mp hold
    exact ⟨_, Array.getElem?_eq_getElem (h.size_eq ▸ hlt)⟩
  obtain ⟨later, hran⟩ := h.perform hpool hstages
  rw [due_finish hran ((hran.running_iff task).mpr rfl)]
  have hstart := @due_setStage task s { s with pool } j old .running hj hold rfl hstages
  have hacts := @due_acts_le ({ s with pool }.emit [.ran j.name pool.queued pool.permits]) j.acts
    (by simp [emit, hstages, h.size_eq])
  have hemit : ({ s with pool }.emit [.ran j.name pool.queued pool.permits]).due =
      ({ s with pool } : Jobs).due := rfl
  have hwork := @Job.lt_work j old hqueued
  have hnone : j.work .running = 0 := rfl
  simp only [Jobs.perform, hj]
  omega

theorem due_poll_lt (h : s.Kept max given { futures := [task] } log) :
    (s.poll task).due < s.due := by
  have hpool := h.pool.poll
  have hpolled := h.pool.polled
  obtain ⟨j, hj⟩ : ∃ j, s.submitted[task]? = some j := by
    obtain ⟨old, hold, -⟩ := h.pool.isQueued_of_held
    obtain ⟨hlt, -⟩ := Array.getElem?_eq_some_iff.mp hold
    exact ⟨_, Array.getElem?_eq_getElem (h.size_eq ▸ hlt)⟩
  unfold Jobs.poll
  generalize s.pool.poll task = result at hpool hpolled
  rcases hpolled with ⟨hstage, hopen, hfree⟩ | ⟨hstage, hopen⟩ | ⟨hstage, hopen, hfree⟩ |
    @⟨before, hstage, hqueued, hclosed⟩
  · exact h.due_perform_lt hpool rfl
  · exact h.due_perform_lt hpool rfl
  · refine due_lt_of_setStage hj hstage rfl rfl ?_
    simp [Job.work, Stage.isQueued, Stage.polls]
  · refine due_lt_of_setStage hj hstage rfl rfl ?_
    exact Nat.lt_of_le_of_lt (Nat.zero_le _) (Job.lt_work hqueued)

/-- With enough turns a drive goes on until no future is ready. -/
theorem driveFor_idle (fuel : Nat) (h : s.Kept max given {} log) (hfuel : s.due < fuel) :
    (s.driveFor fuel).pool.inner = [] ∧ (s.driveFor fuel).pool.outer = [] := by
  induction fuel generalizing s log with
  | zero => omega
  | succ fuel ih =>
      have hturn := h.turn
      have hdue : ({ s with pool := s.pool.turn.1 } : Jobs).due = s.due := by
        obtain ⟨-, -, hturn⟩ | ⟨_, inner, outer, -, hturn⟩ := s.pool.turn_cases
        · rw [hturn]
          rfl
        · rw [hturn]
          rfl
      rw [Jobs.driveFor]
      obtain ⟨hinner, houter, hresult⟩ | ⟨task, inner, outer, -, hresult⟩ := s.pool.turn_cases
      · simp [hresult, hinner, houter]
      · rw [hresult] at hturn hdue ⊢
        obtain ⟨later, hpoll⟩ := hturn.poll
        apply ih hpoll
        have := hturn.due_poll_lt
        omega

theorem drive_queuedTasks (h : s.Kept max given {} log) (hmax : 0 < max) :
    s.drive.pool.queuedTasks = [] := by
  obtain ⟨hinner, houter⟩ := h.driveFor_idle s.turnBudget s.due_lt_turnBudget
  obtain ⟨later, hdriven⟩ := h.driveFor s.turnBudget
  refine hdriven.pool.queuedTasks_eq_nil hmax ?_ hinner houter
  rw [Array.count_eq_zero]
  intro hmem
  obtain ⟨task, hlt, hstage⟩ := Array.mem_iff_getElem.mp hmem
  have := (hdriven.running_iff task).mp (Array.getElem?_eq_some_iff.mpr ⟨hlt, hstage⟩)
  contradiction

end Kept
end Jobs

/-- What is done to a pool from outside. -/
inductive JobStep where
  | submit (j : Job)
  | drive
  | shutdown
  | dropRuntime

def JobStep.job? : JobStep → Option Job
  | submit j => some j
  | _ => none

namespace Jobs

def step (s : Jobs) : JobStep → Jobs
  | .submit j => s.submit false j
  | .drive => s.drive
  | .shutdown => s.shutdown false
  | .dropRuntime => s.dropRuntime

def run (s : Jobs) (steps : List JobStep) : Jobs := steps.foldl step s

theorem run_append (s : Jobs) (steps more : List JobStep) :
    s.run (steps ++ more) = (s.run steps).run more :=
  List.foldl_append

theorem Kept.start {permits limit : Nat} {pool : Pool}
    (hpool : Pool.ofLimits? permits limit = some pool) :
    ({ pool } : Jobs).Kept permits [] {} [] := by
  obtain ⟨-, rfl⟩ : permits ≤ Pool.maxPermits ∧ ({ permits, limit } : Pool) = pool := by
    simpa [Pool.ofLimits?] using hpool
  refine ⟨Pool.Consistent.ofLimits hpool, ?_, ?_, ?_, ?_, ?_, ?_, ?_⟩ <;> simp [eventsOf, ranIn]

theorem Kept.step {next : JobStep} (h : s.Kept max given {} log) :
    ∃ later, (s.step next).Kept max (given ++ next.job?.toList) {} (log ++ later) := by
  rcases next with j | _ | _ | _
  · have hgiven : s.Kept max (given ++ [j]) { jobs := [j] } log := by
      refine ⟨h.pool, h.size_eq, h.running_iff, h.events_eq, h.notices, h.fresh, h.story, ?_⟩
      have := h.handed.append_right [j]
      simp only [List.append_nil] at this
      refine this.trans ?_
      simpa only [List.append_assoc] using List.Perm.append_left given List.perm_append_comm
    exact hgiven.submit rfl rfl rfl
  · simpa [JobStep.job?] using! h.drive
  · simpa [JobStep.job?] using! @shutdown _ false _ _ _ _ h
  · simpa [JobStep.job?] using! h.dropRuntime

theorem Kept.run (h : s.Kept max given {} log) (steps : List JobStep) :
    ∃ later, (s.run steps).Kept max (given ++ steps.filterMap JobStep.job?) {} (log ++ later) := by
  induction steps generalizing s given log with
  | nil => exact ⟨[], by simpa [Jobs.run] using h⟩
  | cons next steps ih =>
      obtain ⟨first, hfirst⟩ := @step max log given s next h
      obtain ⟨rest, hrest⟩ := ih hfirst
      refine ⟨first ++ rest, ?_⟩
      have hjobs : (next :: steps).filterMap JobStep.job? =
          next.job?.toList ++ steps.filterMap JobStep.job? := by
        rcases next with _ | _ | _ | _ <;> simp [List.filterMap_cons, JobStep.job?]
      simpa only [hjobs, ← List.append_assoc, Jobs.run, List.foldl_cons] using hrest

/-- A task that was accepted and has neither run nor been dropped since. -/
def IsOpen (s : Jobs) (log : JobLog) (task : Nat) : Prop :=
  task < s.submitted.size ∧ eventsOf log task = [.accepted (s.nameOf task)]

/-- A log that attributes every event but the notices to a submitted task, so that each task has met
one fate or is queued. -/
structure Accounts (s : Jobs) (log : JobLog) : Prop where
  events_eq : log.map Prod.snd = s.events.toList
  notices : ∀ event, (none, event) ∈ log → ∃ notice, event = .log notice
  owner_lt : ∀ task event, (some task, event) ∈ log → task < s.submitted.size
  fate : ∀ task < s.submitted.size, ¬ s.IsOpen log task → Fate (s.nameOf task) (eventsOf log task)
  isOpen_iff : ∀ task, s.IsOpen log task ↔ task ∈ s.pool.queuedTasks
  queued_eq : s.pool.queued = s.pool.queuedTasks.length

theorem Kept.accounts (h : s.Kept max given {} log) : s.Accounts log := by
  have hstory (task : Nat) (hlt : task < s.submitted.size) : ∃ stage,
      s.pool.stages[task]? = some stage ∧ Story (s.nameOf task) stage (eventsOf log task) := by
    have hj : s.submitted[task]? = some s.submitted[task] := Array.getElem?_eq_getElem hlt
    have hstage := Array.getElem?_eq_getElem (h.size_eq.symm ▸ hlt : task < s.pool.stages.size)
    refine ⟨_, hstage, ?_⟩
    simpa [nameOf, hj] using h.story task _ _ hj hstage
  have hopen (task : Nat) : s.IsOpen log task ↔ task ∈ s.pool.queuedTasks := by
    rw [Pool.mem_queuedTasks]
    constructor
    · rintro ⟨hlt, hevents⟩
      obtain ⟨stage, hstage, htold⟩ := hstory task hlt
      exact ⟨stage, hstage, htold.queued_iff.mpr hevents⟩
    · rintro ⟨stage, hstage, hqueued⟩
      obtain ⟨hlt, -⟩ := Array.getElem?_eq_some_iff.mp hstage
      have hlt : task < s.submitted.size := h.size_eq ▸ hlt
      obtain ⟨_, hsame, htold⟩ := hstory task hlt
      obtain rfl : stage = _ := by simpa [hstage] using hsame
      exact ⟨hlt, htold.eq_of_queued hqueued⟩
  refine ⟨h.events_eq, h.notices, ?_, ?_, hopen, h.pool.queued_eq⟩
  · intro task event hmem
    by_contra hge
    have := mem_eventsOf.mpr hmem
    simp [h.fresh task (by omega)] at this
  · intro task hlt hnot
    obtain ⟨stage, hstage, htold⟩ := hstory task hlt
    apply htold.fate
    rw [← Bool.not_eq_true]
    intro hqueued
    exact hnot ((hopen task).mpr (Pool.mem_queuedTasks.mpr ⟨stage, hstage, hqueued⟩))

/-! ### The end of the runtime is final -/

theorem acts_alive {acts : List JobAct} : (acts.foldl act s).pool.alive = s.pool.alive := by
  induction acts generalizing s with
  | nil => rfl
  | cons next acts ih =>
      rw [List.foldl_cons, ih]
      rcases next with _ | j
      · exact Pool.shutdown_alive
      · exact Pool.submit_alive

theorem poll_alive : (s.poll task).pool.alive = s.pool.alive := by
  have hpoll := @Pool.poll_alive s.pool task
  unfold poll
  generalize s.pool.poll task = result at hpoll
  obtain ⟨pool, _ | _ | _⟩ := result
  · refine Pool.finish_alive.trans (Eq.trans ?_ hpoll)
    unfold perform
    split
    · rfl
    · rw [acts_alive]
      rfl
  · exact hpoll
  · exact hpoll

theorem driveFor_alive (fuel : Nat) : (s.driveFor fuel).pool.alive = s.pool.alive := by
  induction fuel generalizing s with
  | zero => rfl
  | succ fuel ih =>
      have hturn := @Pool.turn_alive s.pool
      rw [driveFor]
      generalize s.pool.turn = result at hturn
      obtain ⟨pool, _ | task⟩ := result
      · exact hturn
      · exact ih.trans (poll_alive.trans hturn)

theorem step_dead {next : JobStep} (h : s.pool.alive = false ∨ next = .dropRuntime) :
    (s.step next).pool.alive = false := by
  rcases next with j | _ | _ | _
  · exact Pool.submit_alive.trans (by simpa using h)
  · exact (driveFor_alive _).trans (by simpa using h)
  · exact Pool.shutdown_alive.trans (by simpa using h)
  · rfl

theorem run_dead {steps : List JobStep} (h : s.pool.alive = false ∨ .dropRuntime ∈ steps) :
    (s.run steps).pool.alive = false := by
  induction steps generalizing s with
  | nil => simpa [run] using h
  | cons next steps ih =>
      apply ih
      rw [List.mem_cons] at h
      rcases h with h | h | h
      · exact .inl (step_dead (.inl h))
      · exact .inl (step_dead (.inr h.symm))
      · exact .inr h

/-- Whatever is done to a pool, from outside and by the tasks that run on it, its events can be told
apart by task so that each task has met exactly one fate, or is queued and counted as such. The tasks
are those given from outside and those that tasks which ran have submitted. Nothing is queued once the
runtime is gone, nor after a drive with a permit to give. Later events only add to the log. -/
theorem one_fate {permits limit : Nat} {pool : Pool}
    (hpool : Pool.ofLimits? permits limit = some pool) (steps : List JobStep) :
    let s := ({ pool } : Jobs).run steps
    ∃ log, s.Accounts log ∧
      s.submitted.toList.Perm (steps.filterMap JobStep.job? ++ (ranIn log).flatMap s.submitsOf) ∧
      (.dropRuntime ∈ steps → ∀ task, ¬ s.IsOpen log task) ∧
      (1 ≤ permits → steps.getLast? = some .drive →
        s.pool.queued = 0 ∧ ∀ task, ¬ s.IsOpen log task) ∧
      ∀ more, ∃ later, (s.run more).Accounts (log ++ later) := by
  intro s
  obtain ⟨log, hkept⟩ := (Kept.start hpool).run steps
  rw [List.nil_append, List.nil_append] at hkept
  have haccounts := hkept.accounts
  have hnone (h : s.pool.queuedTasks = []) (task : Nat) : ¬ s.IsOpen log task := by
    rw [haccounts.isOpen_iff, h]
    exact List.not_mem_nil
  refine ⟨log, haccounts, ?_, ?_, ?_, ?_⟩
  · simpa using hkept.handed
  · intro hdrop
    exact hnone (hkept.pool.dead (run_dead (.inr hdrop)))
  · intro hpermits hlast
    obtain ⟨before, rfl⟩ := List.getLast?_eq_some_iff.mp hlast
    obtain ⟨earlier, hbefore⟩ := (Kept.start hpool).run before
    have hnil : s.pool.queuedTasks = [] := by
      simp only [s, run_append]
      exact hbefore.drive_queuedTasks hpermits
    exact ⟨by rw [haccounts.queued_eq, hnil]; rfl, hnone hnil⟩
  · intro more
    obtain ⟨later, hmore⟩ := hkept.run more
    exact ⟨later, hmore.accounts⟩

/-- A task that runs submits another, closes the pool and submits a third one: that one is refused,
and those that wait are dropped. -/
theorem one_fate_closedWhileRunning :
    let first : Job := .task "a" [.submit (.task "b" []), .shutdown, .submit (.task "c" [])]
    let steps : List JobStep := [.submit first, .submit (.task "d" []), .drive]
    let s := ({ pool := { permits := 1, limit := 2 } } : Jobs).run steps
    s.events.toList =
        [.accepted "a", .accepted "d", .ran "a" 1 0, .accepted "b", .log (.poolShutdown 2),
          .dropped "c", .refused "c" .shutdown, .log .poolDropped, .dropped "b",
          .log .poolDropped, .dropped "d"] ∧
      ∃ log, s.Accounts log ∧ ∀ task, ¬ s.IsOpen log task := by
  intro first steps s
  refine ⟨by decide +kernel, ?_⟩
  obtain ⟨log, haccounts, -, -, hdriven, -⟩ :=
    @one_fate 1 2 { permits := 1, limit := 2 } rfl steps
  exact ⟨log, haccounts, (hdriven (Nat.le_refl 1) rfl).2⟩

end Jobs
end Rehearsal
end Prefilter
