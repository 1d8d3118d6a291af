import Prefilter.Config.Derived
import Prefilter.Proofs.Config.Documents
import Prefilter.Proofs.Dispatch.Drive
import Prefilter.Proofs.Dispatch.History

namespace Prefilter

namespace Pool

variable {pool p p' : Pool} {permits limit max task : Nat} {inside : Bool} {history : List PoolEvent}
  {event : PoolEvent}

theorem submit_of_room (opened : p.closed = false) (alive : p.alive = true) (room : p.queued < p.limit) :
    (p.submit inside).2 = .queued := by
  simp [submit, opened, alive, Nat.not_le.mpr room]

theorem submit_ne_dropped (alive : p.alive = true) : (p.submit inside).2 ≠ .dropped := by
  simp only [submit, alive]
  split_ifs <;> simp

theorem Step.passing_dropped (h : p.Consistent max []) (step : p.Step event p')
    (opened : p.closed = false) (alive : p'.alive = true) : event.passing .dropped = [] := by
  have hlive := step.alive_iff.mp alive
  cases step with
  | submit inside =>
      have hkept : (p.submit inside).2 ≠ .dropped := submit_ne_dropped hlive.1
      generalize (p.submit inside).2 = admission at hkept
      cases admission with
      | dropped => exact absurd rfl hkept
      | queued | refused => rfl
  | @poll task inner outer ready =>
      have hheld : ({ p with inner, outer } : Pool).Consistent max [task] := h.schedule ready
      have hpolled := hheld.polled
      generalize ({ p with inner, outer } : Pool).poll task = result at hpolled
      cases hpolled with
      | gaveUp _ _ hclosed => simp [opened] at hclosed
      | _ => rfl
  | finish | shutdown => rfl
  | dropRuntime => exact absurd rfl (hlive.2 _)

theorem Reached.passed_dropped (reached : pool.Reached history p)
    (made : ofLimits? permits limit = some pool) (opened : p.closed = false) (alive : p.alive = true) :
    passed .dropped history = [] := by
  induction reached with
  | start => rfl
  | step reached step ih =>
      have hconsistent := (reached.recorded made).consistent
      have hopened : _ = false := Bool.eq_false_iff.mpr fun hclosed =>
        Bool.eq_false_iff.mp opened ((step.closed_iff hconsistent).mpr (.inl hclosed))
      rw [passed_append, ih hopened (step.alive_iff.mp alive).1, passed_singleton,
        step.passing_dropped hconsistent hopened alive, List.nil_append]
  | recount _ turns ih => exact ih opened alive

end Pool

namespace Rehearsal

variable {max task permits limit : Nat} {name : String} {stage : Stage} {events : List JobEvent}
  {pool : Pool} {steps : List JobStep} {given : List Job} {log : JobLog} {s : Jobs}

/-- The events of a task that was refused, or accepted and run. -/
inductive Served (name : String) : List JobEvent → Prop where
  | refused (error : DispatchError) : Served name [.dropped name, .refused name error]
  | ran (queued permits : Nat) : Served name [.accepted name, .ran name queued permits]

theorem Served.exists_ran (h : Served name events) (accepted : .accepted name ∈ events) :
    ∃ queued permits, .ran name queued permits ∈ events := by
  cases h with
  | refused => simp at accepted
  | ran queued permits => exact ⟨queued, permits, by simp⟩

theorem Story.served (h : Story name stage events) (unqueued : stage.isQueued = false)
    (undropped : stage ≠ .dropped) : Served name events := by
  cases h with
  | queued hqueued => simp [unqueued] at hqueued
  | refused error => exact .refused error
  | running queued permits | finished queued permits => exact .ran queued permits
  | dropped | droppedAtOnce => exact absurd rfl undropped

namespace Jobs

theorem Kept.served (h : s.Kept max given {} log) (empty : s.pool.queuedTasks = [])
    (undropped : ∀ task : Nat, s.pool.stages[task]? ≠ some Stage.dropped)
    (submitted : task < s.submitted.size) :
    Served (s.nameOf task) (eventsOf log task) := by
  have hj : s.submitted[task]? = some s.submitted[task] := Array.getElem?_eq_getElem submitted
  have hstage := Array.getElem?_eq_getElem (h.size_eq.symm ▸ submitted : task < s.pool.stages.size)
  have hstory := h.story task _ _ hj hstage
  have hname : s.nameOf task = s.submitted[task].name := by simp [nameOf, hj]
  rw [hname]
  refine hstory.served ?_ fun heq => undropped task (heq ▸ hstage)
  rw [← Bool.not_eq_true]
  intro hqueued
  have hmem := Pool.mem_queuedTasks.mpr ⟨_, hstage, hqueued⟩
  rw [empty] at hmem
  cases hmem

theorem stage_ne_dropped (made : Pool.ofLimits? permits limit = some pool)
    (opened : (({ pool } : Jobs).run steps).pool.closed = false)
    (alive : (({ pool } : Jobs).run steps).pool.alive = true) (task : Nat) :
    (({ pool } : Jobs).run steps).pool.stages[task]? ≠ some Stage.dropped := by
  intro hstage
  obtain ⟨history, reached⟩ := ({ pool } : Jobs).exists_reached_run steps
  have hmem := (reached.recorded made).mem_passed_iff (m := .dropped).mpr ⟨_, hstage, rfl⟩
  rw [reached.passed_dropped made opened alive] at hmem
  cases hmem

end Jobs
end Rehearsal

namespace Settings

open Rehearsal

variable {settings : Settings}

theorem pos_of_fault?_eq_none (h : settings.fault? = none) :
    0 < settings.maxConcurrentTasks.toNat ∧ 0 < settings.maxQueuedTasks.toNat := by
  rw [fault?] at h
  split at h
  · cases h
  · split at h
    · cases h
    · rename_i hpermits hroom
      exact ⟨UInt64.pos_iff_ne_zero.mpr hpermits, UInt64.pos_iff_ne_zero.mpr hroom⟩

/-- A document can ask for one permit too many; its settings are valid all the same. -/
theorem pool_missing_oneTooMany :
    ∃ s, ofToml "[can_match]\nmax_concurrent_tasks = 2305843009213693952\n" = .ok s ∧
      s.fault? = none ∧ s.pool? = none :=
  ⟨{ maxConcurrentTasks := 2305843009213693952 }, rfl, rfl, by decide⟩

/-- Valid settings, such as those of every document that is read, make a pool unless they ask for more
permits than a pool can have. As long as the pool is open and its runtime there, whatever was done to it
and whatever its tasks did, it takes in a task whenever none waits, and a drive leaves no task that was
accepted but has not run. -/
theorem pool_serves (valid : settings.fault? = none) :
    (settings.pool? = none ↔ Pool.maxPermits < settings.maxConcurrentTasks.toNat) ∧
    ∀ pool, settings.pool? = some pool → ∀ steps : List JobStep,
      (({ pool } : Jobs).run steps).pool.closed = false →
      (({ pool } : Jobs).run steps).pool.alive = true →
      ((({ pool } : Jobs).run steps).pool.queued = 0 → ∀ inside job,
        ((({ pool } : Jobs).run steps).submit inside job).events =
          (({ pool } : Jobs).run steps).events.push (.accepted job.name)) ∧
      (steps.getLast? = some .drive → (({ pool } : Jobs).run steps).pool.queued = 0 ∧
        ∃ log, (({ pool } : Jobs).run steps).Accounts log ∧ ∀ task,
          .accepted ((({ pool } : Jobs).run steps).nameOf task) ∈ eventsOf log task →
          ∃ queued permits,
            .ran ((({ pool } : Jobs).run steps).nameOf task) queued permits ∈ eventsOf log task) := by
  obtain ⟨hpermits, hroom⟩ := pos_of_fault?_eq_none valid
  refine ⟨by simp [pool?, Pool.ofLimits?], fun pool made steps opened alive => ⟨?_, ?_⟩⟩
  · intro idle inside job
    obtain ⟨history, reached⟩ := ({ pool } : Jobs).exists_reached_run steps
    have hlimit := (reached.recorded made).limit_eq
    have hqueued : ((({ pool } : Jobs).run steps).pool.submit inside).2 = .queued :=
      Pool.submit_of_room opened alive (by omega)
    simp [Jobs.submit, Jobs.emit, hqueued]
  · intro hlast
    obtain ⟨before, rfl⟩ := List.getLast?_eq_some_iff.mp hlast
    obtain ⟨log, kept⟩ := (Jobs.Kept.start made).run (before ++ [.drive])
    have hempty : (({ pool } : Jobs).run (before ++ [.drive])).pool.queuedTasks = [] := by
      obtain ⟨earlier, hbefore⟩ := (Jobs.Kept.start made).run before
      rw [Jobs.run_append]
      exact hbefore.drive_queuedTasks hpermits
    have hundropped := Jobs.stage_ne_dropped made opened alive
    rw [List.nil_append] at kept
    refine ⟨by rw [kept.accounts.queued_eq, hempty]; rfl, log, kept.accounts, fun task accepted => ?_⟩
    have hsubmitted := kept.accounts.owner_lt task _ (mem_eventsOf.mp accepted)
    exact (kept.served hempty hundropped hsubmitted).exists_ran accepted

/-- A task that submits another, and one for which there is no room. -/
def oneOfThree : Jobs := ({ pool := { permits := 1, limit := 1 } } : Jobs).run
  [.submit (.task "a" [.submit (.task "b" [])]), .submit (.task "c" []), .drive]

theorem pool_serves_oneOfThree :
    oneOfThree.events.toList = [.accepted "a", .dropped "c", .refused "c" (.rejected 1 1),
        .ran "a" 0 0, .accepted "b", .ran "b" 0 0] ∧
      (oneOfThree.submit false (.task "d" [])).events = oneOfThree.events.push (.accepted "d") ∧
      ∃ log, oneOfThree.Accounts log ∧ ∀ task, .accepted (oneOfThree.nameOf task) ∈ eventsOf log task →
        ∃ queued permits, .ran (oneOfThree.nameOf task) queued permits ∈ eventsOf log task := by
  have hvalid : ({ maxConcurrentTasks := 1, maxQueuedTasks := 1 } : Settings).fault? = none := rfl
  obtain ⟨haccepts, hdriven⟩ := (pool_serves hvalid).2 { permits := 1, limit := 1 } rfl
    [.submit (.task "a" [.submit (.task "b" [])]), .submit (.task "c" []), .drive]
    (by decide +kernel) (by decide +kernel)
  obtain ⟨hidle, hran⟩ := hdriven rfl
  exact ⟨by decide +kernel, haccepts hidle false _, hran⟩

end Settings
end Prefilter
