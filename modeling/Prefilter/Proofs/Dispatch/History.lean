import Prefilter.Proofs.Dispatch.Drive

/-!
Histories of a pool. Whoever brings it about and in whatever order, what happens to a pool is a
submission, a poll of a ready future, the end of a running task, a shutdown or the end of the runtime.
A history lists these with what came of them, and how a task stands can be read off it. Scripted tasks
make one history among others.
-/

namespace Prefilter

/-- What happens to a pool, with what comes of it. -/
inductive PoolEvent where
  | submit (task : Nat) (admission : Admission)
  | poll (task : Nat) (result : Poll)
  | finish (task : Nat)
  | shutdown
  /-- The runtime goes, and these tasks are dropped with it. -/
  | dropRuntime (tasks : List Nat)
deriving DecidableEq

/-- What a task comes to in the course of a history. -/
inductive Milestone where
  | accepted
  | started
  | finished
  | dropped
deriving DecidableEq

namespace PoolEvent

def subjects : PoolEvent → List Nat
  | submit task _ | poll task _ | finish task => [task]
  | shutdown => []
  | dropRuntime tasks => tasks

/-- The tasks that pass a milestone in an event. -/
def passing : Milestone → PoolEvent → List Nat
  | .accepted, submit task .queued | .accepted, submit task .dropped => [task]
  | .started, poll task .starts => [task]
  | .finished, finish task => [task]
  | .dropped, submit task .dropped | .dropped, poll task .gaveUp => [task]
  | .dropped, dropRuntime tasks => tasks
  | _, _ => []

theorem passing_subset {m : Milestone} {event : PoolEvent} {task : Nat} (h : task ∈ event.passing m) :
    task ∈ event.subjects := by
  unfold passing at h
  split at h <;> simp_all [subjects]

end PoolEvent

namespace Stage

/-- Whether a task in this stage has passed a milestone. -/
def isPast : Milestone → Stage → Bool
  | .accepted, refused => false
  | .accepted, _ => true
  | .started, running | .started, finished | .finished, finished | .dropped, dropped => true
  | _, _ => false

end Stage

variable {history later : List PoolEvent} {event : PoolEvent}

/-- The tasks that have passed a milestone. -/
def passed (m : Milestone) (history : List PoolEvent) : List Nat :=
  history.flatMap (PoolEvent.passing m)

/-- The tasks that were accepted and have neither come back from waiting for a permit, which starts
them, nor been dropped. -/
def waitingIn (history : List PoolEvent) : List Nat :=
  (passed .accepted history).filter fun task =>
    task ∉ passed .started history ∧ task ∉ passed .dropped history

def runningIn (history : List PoolEvent) : List Nat :=
  (passed .started history).filter fun task => task ∉ passed .finished history

theorem passed_append (m : Milestone) :
    passed m (history ++ later) = passed m history ++ passed m later :=
  List.flatMap_append

theorem passed_singleton (m : Milestone) : passed m [event] = event.passing m :=
  List.flatMap_singleton ..

namespace Pool

variable {p p' q : Pool} {max task other : Nat} {inside : Bool} {stage stage' : Option Stage}

/-- One event. The scheduler may pick any ready future, and keep the others in any order. -/
inductive Step (p : Pool) : PoolEvent → Pool → Prop where
  | submit (inside : Bool) :
      Step p (.submit p.stages.size (p.submit inside).2) (p.submit inside).1
  | poll {task : Nat} {inner outer : List Nat}
      (ready : (task :: (inner ++ outer)).Perm (p.inner ++ p.outer)) :
      Step p (.poll task (({ p with inner, outer } : Pool).poll task).2)
        (({ p with inner, outer } : Pool).poll task).1
  | finish {task : Nat} (running : p.stages[task]? = some .running) :
      Step p (.finish task) (p.finish task)
  | shutdown (inside : Bool) : Step p .shutdown (p.shutdown inside)
  | dropRuntime : Step p (.dropRuntime p.dropRuntime.2) p.dropRuntime.1

/-- What a pool can become, with all that happens on the way. -/
inductive Reached (start : Pool) : List PoolEvent → Pool → Prop where
  | start : Reached start [] start
  | step {history : List PoolEvent} {p p' : Pool} {event : PoolEvent}
      (reached : Reached start history p) (step : p.Step event p') :
      Reached start (history ++ [event]) p'
  /-- How many turns were taken is of no consequence. -/
  | recount {history : List PoolEvent} {p : Pool} (reached : Reached start history p) (turns : Nat) :
      Reached start history { p with turns }

namespace Reached

theorem append (reached : p.Reached history p') (rest : p'.Reached later q) :
    p.Reached (history ++ later) q := by
  induction rest with
  | start => simpa using reached
  | step _ step ih => exact List.append_assoc .. ▸ ih.step step
  | recount _ turns ih => exact ih.recount turns

theorem cut (reached : p.Reached (history ++ later) q) :
    ∃ p', p.Reached history p' ∧ p'.Reached later q := by
  generalize hall : history ++ later = all at reached
  induction reached generalizing later with
  | start =>
      obtain ⟨rfl, rfl⟩ := List.append_eq_nil_iff.mp hall
      exact ⟨p, .start, .start⟩
  | @step earlier p₁ p₂ event reached step ih =>
      rcases List.eq_nil_or_concat later with rfl | ⟨before, last, rfl⟩
      · rw [List.append_nil] at hall
        exact ⟨p₂, hall ▸ reached.step step, .start⟩
      · rw [List.concat_eq_append, ← List.append_assoc] at hall
        obtain ⟨hearlier, hlast⟩ := List.append_inj' hall rfl
        obtain ⟨p', hbefore, hafter⟩ := ih hearlier
        obtain rfl := List.singleton_inj.mp hlast
        exact ⟨p', hbefore, List.concat_eq_append .. ▸ hafter.step step⟩
  | recount reached turns ih =>
      obtain ⟨p', hbefore, hafter⟩ := ih hall
      exact ⟨p', hbefore, hafter.recount turns⟩

end Reached

/-! ### One event, one task -/

/-- How one task gets from stage to stage in an event. -/
inductive Passage (task : Nat) : PoolEvent → Option Stage → Option Stage → Prop where
  | submitted (admission : Admission) :
      Passage task (.submit task admission) none (some admission.stage)
  | starts {before : Stage} (queued : before.isQueued = true) :
      Passage task (.poll task .starts) (some before) (some .running)
  | waits : Passage task (.poll task .waits) (some .spawned) (some .waiting)
  | gaveUp {before : Stage} (queued : before.isQueued = true) :
      Passage task (.poll task .gaveUp) (some before) (some .dropped)
  | finished : Passage task (.finish task) (some .running) (some .finished)
  | lost {tasks : List Nat} {before : Stage} (once : tasks.count task = 1)
      (queued : before.isQueued = true) :
      Passage task (.dropRuntime tasks) (some before) (some .dropped)
  /-- Another task passes its permit on. -/
  | granted {event : PoolEvent} (apart : task ∉ event.subjects) :
      Passage task event (some .waiting) (some .granted)
  | apart {event : PoolEvent} {stage : Option Stage} (apart : task ∉ event.subjects) :
      Passage task event stage stage

theorem Consistent.schedule {held inner outer : List Nat} (h : p.Consistent max [])
    (ready : (held ++ (inner ++ outer)).Perm (p.inner ++ p.outer)) :
    ({ p with inner, outer } : Pool).Consistent max held where
  futures_perm := by
    refine List.Perm.trans ?_ h.futures_perm
    simpa [futures] using ready.append_right p.line
  queued_eq := h.queued_eq
  queued_le := h.queued_le
  permits_eq := h.permits_eq
  line_waiting := h.line_waiting
  waiting_line := h.waiting_line
  line_stuck := h.line_stuck
  dead := h.dead

theorem Consistent.recount (h : p.Consistent max []) (turns : Nat) :
    ({ p with turns } : Pool).Consistent max [] :=
  ⟨h.futures_perm, h.queued_eq, h.queued_le, h.permits_eq, h.line_waiting, h.waiting_line,
    h.line_stuck, h.dead⟩

theorem Step.consistent (h : p.Consistent max []) (step : p.Step event p') :
    p'.Consistent max [] := by
  cases step with
  | submit => exact h.submit
  | poll ready => exact (h.schedule ready).poll
  | finish running => exact h.finish running
  | shutdown => exact h.shutdown
  | dropRuntime => exact h.dropRuntime

theorem Polled.passage {result : Pool × Poll} (h : p.Polled task result) (other : Nat) :
    Passage other (.poll task result.2) p.stages[other]? result.1.stages[other]? := by
  have hstages {old new : Stage} (hstage : p.stages[task]? = some old) :
      (p.setStage task new).stages[other]? = if task = other then some new else p.stages[other]? :=
    stages_setStage hstage
  by_cases heq : task = other
  · subst heq
    cases h with
    | starts hstage | resumes hstage =>
        simpa [hstages hstage, hstage] using! Passage.starts rfl
    | waits hstage => simpa [hstages hstage, hstage] using! Passage.waits
    | gaveUp hstage hqueued => simpa [hstages hstage, hstage] using! Passage.gaveUp hqueued
  · have happart {result : Poll} : other ∉ (PoolEvent.poll task result).subjects := by
      simpa [PoolEvent.subjects] using Ne.symm heq
    cases h with
    | starts hstage | resumes hstage | waits hstage | gaveUp hstage =>
        simpa [hstages hstage, heq] using! Passage.apart happart

theorem Step.passage (h : p.Consistent max []) (step : p.Step event p') (task : Nat) :
    Passage task event p.stages[task]? p'.stages[task]? := by
  cases step with
  | submit inside =>
      rw [submit_stages, Array.getElem?_push]
      split
      · subst task
        simpa using Passage.submitted _
      · rename_i hne
        exact .apart (by simpa [PoolEvent.subjects] using hne)
  | @poll polled inner outer ready =>
      have hheld : ({ p with inner, outer } : Pool).Consistent max [polled] := h.schedule ready
      exact hheld.polled.passage task
  | @finish ended running =>
      rcases h.finish_stage running task with ⟨rfl, hafter⟩ | ⟨hne, hbefore, hafter⟩ | ⟨hne, hsame⟩
      · rw [running, hafter]
        exact .finished
      · rw [hbefore, hafter]
        exact .granted (by simpa [PoolEvent.subjects] using hne)
      · rw [hsame]
        exact .apart (by simpa [PoolEvent.subjects] using hne)
  | shutdown =>
      rw [shutdown_stages]
      exact .apart List.not_mem_nil
  | dropRuntime =>
      have hafter : p.dropRuntime.1.stages[task]? =
          (p.stages[task]?).map fun stage => if stage.isQueued then .dropped else stage :=
        Array.getElem?_map
      rw [hafter]
      by_cases hmem : task ∈ p.queuedTasks
      · obtain ⟨stage, hstage, hqueued⟩ := mem_queuedTasks.mp hmem
        simpa [hstage, hqueued] using!
          Passage.lost (List.count_eq_one_of_mem p.nodup_queuedTasks hmem) hqueued
      · have hsame : (p.stages[task]?).map (fun stage => if stage.isQueued then .dropped else stage) =
            p.stages[task]? := by
          rcases hstage : p.stages[task]? with _ | stage
          · rfl
          · have hqueued : stage.isQueued ≠ true := fun hq => hmem (mem_queuedTasks.mpr ⟨_, hstage, hq⟩)
            simp [hqueued]
        rw [hsame]
        exact .apart hmem

theorem Step.closed_iff (h : p.Consistent max []) (step : p.Step event p') :
    p'.closed = true ↔ p.closed = true ∨ event = .shutdown := by
  cases step with
  | submit =>
      unfold Pool.submit
      split_ifs <;> simp [*]
  | @poll task inner outer ready =>
      have hheld : ({ p with inner, outer } : Pool).Consistent max [task] := h.schedule ready
      have hpolled := hheld.polled
      generalize ({ p with inner, outer } : Pool).poll task = result at hpolled
      cases hpolled <;> simp
  | finish running =>
      obtain ⟨_, _, -, hfinish⟩ | ⟨-, hfinish⟩ := p.finish_cases running <;> simp [hfinish]
  | shutdown => simp [Pool.shutdown]
  | dropRuntime => simp [Pool.dropRuntime]

theorem Step.limit_eq (h : p.Consistent max []) (step : p.Step event p') : p'.limit = p.limit := by
  cases step with
  | submit =>
      unfold Pool.submit
      split_ifs <;> simp
  | @poll task inner outer ready =>
      have hheld : ({ p with inner, outer } : Pool).Consistent max [task] := h.schedule ready
      have hpolled := hheld.polled
      generalize ({ p with inner, outer } : Pool).poll task = result at hpolled
      cases hpolled <;> rfl
  | finish running =>
      obtain ⟨_, _, -, hfinish⟩ | ⟨-, hfinish⟩ := p.finish_cases running <;> simp [hfinish]
  | shutdown => simp [Pool.shutdown]
  | dropRuntime => rfl

theorem Step.alive_iff (step : p.Step event p') :
    p'.alive = true ↔ p.alive = true ∧ ∀ tasks, event ≠ .dropRuntime tasks := by
  cases step with
  | submit => simp [submit_alive]
  | poll => simp [poll_alive]
  | finish => simp [finish_alive]
  | shutdown => simp [shutdown_alive]
  | dropRuntime => simp [Pool.dropRuntime]

/-! ### What a history tells -/

theorem Passage.count_passing (h : Passage task event stage stage') (m : Milestone) :
    (stage.any (Stage.isPast m)).toNat + (event.passing m).count task =
      (stage'.any (Stage.isPast m)).toNat := by
  cases h with
  | submitted admission =>
      cases admission <;> cases m <;> simp [PoolEvent.passing, Admission.stage, Stage.isPast]
  | @starts before queued =>
      cases before <;> simp [Stage.isQueued] at queued <;>
        cases m <;> simp [PoolEvent.passing, Stage.isPast]
  | @gaveUp before queued =>
      cases before <;> simp [Stage.isQueued] at queued <;>
        cases m <;> simp [PoolEvent.passing, Stage.isPast]
  | @lost tasks before once queued =>
      cases before <;> simp [Stage.isQueued] at queued <;>
        cases m <;> simp [PoolEvent.passing, Stage.isPast, once]
  | waits | finished => cases m <;> simp [PoolEvent.passing, Stage.isPast]
  | granted apart =>
      rw [List.count_eq_zero_of_not_mem (mt PoolEvent.passing_subset apart)]
      cases m <;> rfl
  | apart apart => rw [List.count_eq_zero_of_not_mem (mt PoolEvent.passing_subset apart), Nat.add_zero]

/-- A history tells which milestones each task has passed, each of them once. -/
structure Recorded (max limit : Nat) (history : List PoolEvent) (p : Pool) : Prop where
  consistent : p.Consistent max []
  count_passed : ∀ (m : Milestone) (task : Nat),
    (passed m history).count task = ((p.stages[task]?).any (Stage.isPast m)).toNat
  closed_iff : p.closed = true ↔ .shutdown ∈ history
  alive_iff : p.alive = true ↔ ∀ tasks, .dropRuntime tasks ∉ history
  limit_eq : p.limit = limit

theorem length_filter_range_eq_count (stages : List Stage) (stage : Stage) :
    ((List.range stages.length).filter fun i => stages[i]? = some stage).length =
      stages.count stage := by
  induction stages with
  | nil => rfl
  | cons first stages ih =>
      rw [List.length_cons, List.range_succ_eq_map, List.filter_cons, List.filter_map, List.count_cons,
        ← ih]
      by_cases heq : first = stage <;> simp [heq, Function.comp_def]

namespace Recorded

variable {limit : Nat} {m : Milestone}

theorem step (h : Recorded max limit history p) (step : p.Step event p') :
    Recorded max limit (history ++ [event]) p' where
  consistent := step.consistent h.consistent
  count_passed m task := by
    rw [passed_append, List.count_append, h.count_passed, passed_singleton]
    exact (step.passage h.consistent task).count_passing m
  closed_iff := by
    rw [step.closed_iff h.consistent, h.closed_iff]
    simp [eq_comm]
  alive_iff := by
    rw [step.alive_iff, h.alive_iff]
    simp [forall_and, eq_comm]
  limit_eq := (step.limit_eq h.consistent).trans h.limit_eq

theorem recount (h : Recorded max limit history p) (turns : Nat) :
    Recorded max limit history { p with turns } :=
  ⟨h.consistent.recount turns, h.count_passed, h.closed_iff, h.alive_iff, h.limit_eq⟩

theorem mem_passed_iff (h : Recorded max limit history p) :
    task ∈ passed m history ↔ ∃ stage, p.stages[task]? = some stage ∧ stage.isPast m = true := by
  rw [← List.count_pos_iff, h.count_passed]
  rcases p.stages[task]? with _ | stage
  · simp
  · cases hpast : stage.isPast m <;> simp [hpast]

theorem nodup_passed (h : Recorded max limit history p) (m : Milestone) : (passed m history).Nodup := by
  rw [List.nodup_iff_count_le_one]
  intro task
  rw [h.count_passed]
  exact Bool.toNat_le _

theorem mem_waitingIn_iff (h : Recorded max limit history p) :
    task ∈ waitingIn history ↔ task ∈ p.queuedTasks := by
  rw [waitingIn, List.mem_filter, decide_eq_true_eq, h.mem_passed_iff, h.mem_passed_iff,
    h.mem_passed_iff, mem_queuedTasks]
  rcases p.stages[task]? with _ | stage
  · simp
  · cases stage <;> simp [Stage.isPast, Stage.isQueued]

theorem waitingIn_perm (h : Recorded max limit history p) : (waitingIn history).Perm p.queuedTasks :=
  queuedTasks_perm_iff.mpr
    ⟨(h.nodup_passed .accepted).filter _, fun _ => h.mem_waitingIn_iff⟩

theorem queued_eq (h : Recorded max limit history p) : p.queued = (waitingIn history).length := by
  rw [h.consistent.queued_eq, h.waitingIn_perm.length_eq]

theorem mem_runningIn_iff (h : Recorded max limit history p) :
    task ∈ runningIn history ↔ p.stages[task]? = some .running := by
  rw [runningIn, List.mem_filter, decide_eq_true_eq, h.mem_passed_iff, h.mem_passed_iff]
  rcases p.stages[task]? with _ | stage
  · simp
  · cases stage <;> simp [Stage.isPast]

theorem length_runningIn (h : Recorded max limit history p) :
    (runningIn history).length = p.stages.count .running := by
  have hperm : (runningIn history).Perm
      ((List.range p.stages.toList.length).filter fun i => p.stages.toList[i]? = some .running) := by
    refine (List.perm_ext_iff_of_nodup ((h.nodup_passed .started).filter _)
      (List.nodup_range.filter _)).mpr fun task => ?_
    rw [← runningIn, h.mem_runningIn_iff, List.mem_filter, List.mem_range, decide_eq_true_eq,
      Array.getElem?_toList]
    refine ⟨fun hstage => ⟨?_, hstage⟩, And.right⟩
    exact (Array.getElem?_eq_some_iff.mp hstage).1
  rw [hperm.length_eq, length_filter_range_eq_count, Array.count_toList]

end Recorded

theorem Reached.recorded {permits limit : Nat} {pool : Pool} (reached : pool.Reached history p)
    (made : ofLimits? permits limit = some pool) : Recorded permits limit history p := by
  induction reached with
  | start =>
      have hconsistent := Consistent.ofLimits made
      obtain ⟨-, rfl⟩ : permits ≤ maxPermits ∧ ({ permits, limit } : Pool) = pool := by
        simpa [ofLimits?] using made
      exact ⟨hconsistent, by simp [passed], by simp, by simp, rfl⟩
  | step _ step ih => exact ih.step step
  | recount _ turns ih => exact ih.recount turns

end Pool

/-! ### Scripted tasks -/

namespace Rehearsal.Jobs

variable {s : Jobs} {task : Nat}

theorem exists_reached_acts (s : Jobs) (acts : List JobAct) :
    ∃ history, s.pool.Reached history (acts.foldl act s).pool := by
  induction acts generalizing s with
  | nil => exact ⟨[], .start⟩
  | cons next acts ih =>
      obtain ⟨later, hrest⟩ := ih (s.act next)
      rcases next with _ | j
      · exact ⟨_, (Pool.Reached.start.step (.shutdown true)).append hrest⟩
      · exact ⟨_, (Pool.Reached.start.step (.submit true)).append hrest⟩

theorem exists_reached_perform (s : Jobs) (task : Nat) :
    ∃ history, s.pool.Reached history (s.perform task).pool := by
  unfold perform
  split
  · exact ⟨[], .start⟩
  · rename_i j _
    exact exists_reached_acts (s.emit [.ran j.name s.pool.queued s.pool.permits]) j.acts

theorem exists_reached_poll {pool : Pool} {inner outer : List Nat}
    (ready : (task :: (inner ++ outer)).Perm (pool.inner ++ pool.outer)) (s : Jobs) :
    ∃ history, pool.Reached history
      (({ s with pool := { pool with inner, outer } } : Jobs).poll task).pool := by
  have hpolled := Pool.Reached.start.step (.poll ready)
  unfold poll
  generalize ({ pool with inner, outer } : Pool).poll task = result at hpolled
  obtain ⟨after, _ | _ | _⟩ := result
  · obtain ⟨later, hran⟩ := exists_reached_perform { s with pool := after } task
    have hperformed := hpolled.append hran
    by_cases hrunning : (({ s with pool := after } : Jobs).perform task).pool.stages[task]? =
        some .running
    · exact ⟨_, hperformed.step (.finish hrunning)⟩
    · have hsame : (({ s with pool := after } : Jobs).perform task).pool.finish task =
          (({ s with pool := after } : Jobs).perform task).pool := by
        simp [Pool.finish, hrunning]
      exact ⟨_, hsame.symm ▸ hperformed⟩
  · exact ⟨_, hpolled⟩
  · exact ⟨_, hpolled⟩

theorem exists_reached_driveFor (fuel : Nat) (s : Jobs) :
    ∃ history, s.pool.Reached history (s.driveFor fuel).pool := by
  induction fuel generalizing s with
  | zero => exact ⟨[], .start⟩
  | succ fuel ih =>
      let counted : Pool := { s.pool with turns := s.pool.turns + 1 }
      have hcounted : s.pool.Reached [] counted := Pool.Reached.start.recount (s.pool.turns + 1)
      rw [driveFor]
      obtain ⟨-, -, hresult⟩ | ⟨task, inner, outer, ready, hresult⟩ := s.pool.turn_cases
      · rw [hresult]
        exact ⟨[], hcounted⟩
      · rw [hresult]
        obtain ⟨first, hpoll⟩ := @exists_reached_poll task counted inner outer ready s
        obtain ⟨later, hrest⟩ := ih (({ s with pool := { counted with inner, outer } } : Jobs).poll task)
        exact ⟨_, (hcounted.append hpoll).append hrest⟩

theorem exists_reached_step (s : Jobs) (next : JobStep) :
    ∃ history, s.pool.Reached history (s.step next).pool := by
  rcases next with j | _ | _ | _
  · exact ⟨_, .step .start (.submit false)⟩
  · obtain ⟨history, hdriven⟩ := exists_reached_driveFor s.turnBudget s
    exact ⟨history, hdriven.recount _⟩
  · exact ⟨_, .step .start (.shutdown false)⟩
  · exact ⟨_, .step .start .dropRuntime⟩

/-- What scripted tasks do to a pool is one of its histories. -/
theorem exists_reached_run (s : Jobs) (steps : List JobStep) :
    ∃ history, s.pool.Reached history (s.run steps).pool := by
  induction steps generalizing s with
  | nil => exact ⟨[], .start⟩
  | cons next steps ih =>
      obtain ⟨first, hfirst⟩ := s.exists_reached_step next
      obtain ⟨later, hrest⟩ := ih (s.step next)
      exact ⟨_, hfirst.append hrest⟩

end Rehearsal.Jobs
end Prefilter
