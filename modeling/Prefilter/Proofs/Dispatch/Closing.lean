import Prefilter.Proofs.Dispatch.History

namespace Prefilter.Pool

variable {p p' q : Pool} {max task : Nat} {inside : Bool} {before after : List PoolEvent}
  {event : PoolEvent}

/-- No future is ready, so that a drive is over. -/
def IsIdle (p : Pool) : Prop := p.inner = [] ∧ p.outer = []

/-- What can happen to a closed pool: no task is accepted or starts. -/
structure Quiet (event : PoolEvent) : Prop where
  unaccepted : event.passing .accepted = []
  unstarted : event.passing .started = []
  refused : ∀ task admission, event = .submit task admission → admission = .refused .shutdown

theorem submit_of_closed (closed : p.closed = true) :
    (p.submit inside).2 = .refused .shutdown := by
  simp [submit, closed]

theorem events_submit_of_closed {s : Rehearsal.Jobs} (closed : s.pool.closed = true)
    (j : Rehearsal.Job) :
    (s.submit inside j).events = s.events ++ #[.dropped j.name, .refused j.name .shutdown] := by
  simp [Rehearsal.Jobs.submit, Rehearsal.Jobs.emit, submit_of_closed closed]

theorem Consistent.poll_of_closed (h : p.Consistent max [task]) (closed : p.closed = true) :
    (p.poll task).2 = .gaveUp ∧ (p.poll task).1.queued + 1 = p.queued := by
  have hpos : 0 < p.queued :=
    h.queued_eq ▸ List.length_pos_of_mem (h.futures_perm.mem_iff.mp List.mem_cons_self)
  have hpolled := h.polled
  generalize p.poll task = result at hpolled
  cases hpolled with
  | starts _ hopen | resumes _ hopen | waits _ hopen => simp [closed] at hopen
  | gaveUp => exact ⟨rfl, Nat.sub_add_cancel hpos⟩

theorem Step.quiet (h : p.Consistent max []) (closed : p.closed = true) (step : p.Step event p') :
    Quiet event := by
  cases step with
  | submit inside =>
      rw [submit_of_closed closed]
      exact ⟨rfl, rfl, by simp⟩
  | @poll task inner outer ready =>
      have hheld : ({ p with inner, outer } : Pool).Consistent max [task] := h.schedule ready
      rw [(hheld.poll_of_closed closed).1]
      exact ⟨rfl, rfl, by simp⟩
  | finish | shutdown | dropRuntime => exact ⟨rfl, rfl, by simp⟩

theorem Reached.quiet (reached : q.Reached after p) (h : q.Consistent max [])
    (closed : q.closed = true) :
    p.Consistent max [] ∧ p.closed = true ∧ ∀ event ∈ after, Quiet event := by
  induction reached with
  | start => exact ⟨h, closed, List.forall_mem_nil _⟩
  | step _ step ih =>
      obtain ⟨hp, hclosed, hquiet⟩ := ih
      refine ⟨step.consistent hp, (step.closed_iff hp).mpr (.inl hclosed), ?_⟩
      simpa [or_imp, forall_and] using ⟨hquiet, step.quiet hp hclosed⟩
  | recount _ turns ih =>
      obtain ⟨hp, hclosed, hquiet⟩ := ih
      exact ⟨hp.recount turns, hclosed, hquiet⟩

theorem Consistent.ready_perm (h : p.Consistent max []) (closed : p.closed = true) :
    (p.inner ++ p.outer).Perm p.queuedTasks := by
  simpa [futures, h.line_eq_nil_of_closed closed] using h.futures_perm

theorem Consistent.shutdown_eq_self (h : p.Consistent max []) (closed : p.closed = true) :
    p.shutdown inside = p := by
  have hline := h.line_eq_nil_of_closed closed
  obtain ⟨_, _, _, _, _, _, _, _, _, _⟩ := p
  obtain rfl : _ = true := closed
  obtain rfl : _ = [] := hline
  cases inside <;> simp [Pool.shutdown, wake]

theorem passed_shutdown (m : Milestone) :
    passed m (before ++ .shutdown :: after) = passed m before ++ passed m after := by
  have hnone : PoolEvent.passing m .shutdown = [] := by cases m <;> rfl
  rw [passed_append, passed, passed, List.flatMap_cons, hnone, List.nil_append]
  rfl

theorem Recorded.queuedTasks_eq_nil {limit : Nat} {history : List PoolEvent}
    (h : Recorded max limit history p) (closed : p.closed = true)
    (ended : p.IsIdle ∨ ∃ tasks, .dropRuntime tasks ∈ history) : p.queuedTasks = [] := by
  rcases ended with ⟨hinner, houter⟩ | ⟨tasks, hmem⟩
  · have hready := h.consistent.ready_perm closed
    rw [hinner, houter] at hready
    exact hready.nil_eq.symm
  · apply h.consistent.dead
    rw [← Bool.not_eq_true, h.alive_iff]
    exact fun hnone => hnone tasks hmem

section

variable {permits limit : Nat} {pool : Pool}

theorem Reached.quiet_of_shutdown (reached : pool.Reached (before ++ .shutdown :: after) p)
    (made : ofLimits? permits limit = some pool) : ∀ event ∈ after, Quiet event := by
  rw [List.append_cons] at reached
  obtain ⟨q, hclosing, hafter⟩ := reached.cut
  have hrecorded := hclosing.recorded made
  exact (hafter.quiet hrecorded.consistent (hrecorded.closed_iff.mpr (by simp))).2.2

theorem Recorded.ends {history : List PoolEvent} (h : Recorded permits limit history p)
    (started : task ∈ passed .started history) :
    task ∉ passed .dropped history ∧
      (task ∈ passed .finished history ∨ p.Step (.finish task) (p.finish task)) := by
  obtain ⟨stage, hstage, hpast⟩ := h.mem_passed_iff.mp started
  rw [h.mem_passed_iff, h.mem_passed_iff, hstage]
  cases stage <;> simp [Stage.isPast] at hpast
  case running => exact ⟨by simp [Stage.isPast], .inr (.finish hstage)⟩
  case finished => exact ⟨by simp [Stage.isPast], .inl ⟨_, rfl, rfl⟩⟩

theorem Recorded.dropped {history : List PoolEvent} (h : Recorded permits limit history p)
    (accepted : task ∈ passed .accepted history) (unstarted : task ∉ passed .started history)
    (unqueued : task ∉ p.queuedTasks) : task ∈ passed .dropped history := by
  obtain ⟨stage, hstage, hpast⟩ := h.mem_passed_iff.mp accepted
  rw [h.mem_passed_iff] at unstarted
  rw [mem_queuedTasks] at unqueued
  refine h.mem_passed_iff.mpr ⟨stage, hstage, ?_⟩
  cases stage <;> simp_all [Stage.isPast, Stage.isQueued]

theorem exists_reached_drive (made : ofLimits? permits limit = some pool)
    (steps : List Rehearsal.JobStep) :
    (({ pool } : Rehearsal.Jobs).run (steps ++ [.drive])).pool.IsIdle ∧
      ∃ history drive, pool.Reached history (({ pool } : Rehearsal.Jobs).run steps).pool ∧
        pool.Reached (history ++ drive) (({ pool } : Rehearsal.Jobs).run (steps ++ [.drive])).pool := by
  obtain ⟨log, hkept⟩ := (Rehearsal.Jobs.Kept.start made).run steps
  obtain ⟨history, hreached⟩ := Rehearsal.Jobs.exists_reached_run { pool } steps
  obtain ⟨drive, hdriven⟩ := (({ pool } : Rehearsal.Jobs).run steps).exists_reached_step .drive
  rw [Rehearsal.Jobs.run_append]
  exact ⟨hkept.driveFor_idle _ (Rehearsal.Jobs.due_lt_turnBudget _),
    history, drive, hreached, hreached.append hdriven⟩

/-- Once a pool has been closed, at whatever point, no task is accepted or starts any more, and every
submission is refused for that reason, its task dropped. The tasks that ran at that point, among them
the one that closed the pool, are not dropped, and each has come to its end or can still do so. Of
those that waited, none ever starts; each is dropped by the time that a drive is over or the runtime
has gone, when nothing is queued any more, and a drive takes one poll for each of them. To close the
pool again has no effect. -/
theorem nothing_starts_closed (made : ofLimits? permits limit = some pool)
    (reached : pool.Reached (before ++ .shutdown :: after) p) :
    passed .accepted after = [] ∧ passed .started after = [] ∧
    (∀ task admission, .submit task admission ∈ after → admission = .refused .shutdown) ∧
    (∀ inside, (p.submit inside).2 = .refused .shutdown) ∧
    (∀ (s : Rehearsal.Jobs) inside j, s.pool = p →
      (s.submit inside j).events = s.events ++ #[.dropped j.name, .refused j.name .shutdown]) ∧
    (∀ task ∈ runningIn before, task ∉ passed .dropped (before ++ .shutdown :: after) ∧
      (task ∈ passed .finished after ∨ p.Step (.finish task) (p.finish task))) ∧
    (∀ task ∈ waitingIn before, task ∉ passed .started (before ++ .shutdown :: after) ∧
      (p.IsIdle ∨ (∃ tasks, .dropRuntime tasks ∈ after) → task ∈ passed .dropped after)) ∧
    (p.IsIdle ∨ (∃ tasks, .dropRuntime tasks ∈ after) → p.queued = 0) ∧
    (∀ task result p', p.Step (.poll task result) p' → result = .gaveUp ∧ p'.queued + 1 = p.queued) ∧
    (∀ inside, p.shutdown inside = p) ∧
    ∀ steps, (({ pool } : Rehearsal.Jobs).run (steps ++ [.drive])).pool.IsIdle ∧
      ∃ history drive, pool.Reached history (({ pool } : Rehearsal.Jobs).run steps).pool ∧
        pool.Reached (history ++ drive)
          (({ pool } : Rehearsal.Jobs).run (steps ++ [.drive])).pool := by
  have hrecorded := reached.recorded made
  have hconsistent := hrecorded.consistent
  have hclosed : p.closed = true := hrecorded.closed_iff.mpr (by simp)
  have hquiet := reached.quiet_of_shutdown made
  have hstarted : passed .started after = [] :=
    List.flatMap_eq_nil_iff.mpr fun event hmem => (hquiet event hmem).unstarted
  have hempty (ended : p.IsIdle ∨ ∃ tasks, .dropRuntime tasks ∈ after) : p.queuedTasks = [] :=
    hrecorded.queuedTasks_eq_nil hclosed (ended.imp_right fun ⟨tasks, hmem⟩ => ⟨tasks, by simp [hmem]⟩)
  refine ⟨?_, hstarted, ?_, fun _ => submit_of_closed hclosed, ?_, ?_, ?_, ?_, ?_, ?_, ?_⟩
  · exact List.flatMap_eq_nil_iff.mpr fun event hmem => (hquiet event hmem).unaccepted
  · exact fun task admission hmem => (hquiet _ hmem).refused task admission rfl
  · rintro s inside j rfl
    exact events_submit_of_closed hclosed j
  · intro task hrunning
    obtain ⟨hbefore, hunfinished⟩ := List.mem_filter.mp hrunning
    have hpast : task ∈ passed .started (before ++ .shutdown :: after) := by
      simp [passed_shutdown, hbefore]
    obtain ⟨hkept, hend⟩ := hrecorded.ends hpast
    refine ⟨hkept, hend.imp_left fun hfinished => ?_⟩
    rw [passed_shutdown, List.mem_append] at hfinished
    exact hfinished.resolve_left (of_decide_eq_true hunfinished)
  · intro task hwaiting
    obtain ⟨haccepted, hleft⟩ := List.mem_filter.mp hwaiting
    obtain ⟨hunstarted, hundropped⟩ := of_decide_eq_true hleft
    have hnever : task ∉ passed .started (before ++ .shutdown :: after) := by
      simpa [passed_shutdown, hstarted] using hunstarted
    refine ⟨hnever, fun ended => ?_⟩
    have hdropped := hrecorded.dropped (by simp [passed_shutdown, haccepted]) hnever
      (by simp [hempty ended])
    rw [passed_shutdown, List.mem_append] at hdropped
    exact hdropped.resolve_left hundropped
  · intro ended
    rw [hconsistent.queued_eq, hempty ended]
    rfl
  · intro task result p' step
    cases step with
    | @poll _ inner outer ready =>
        have hheld : ({ p with inner, outer } : Pool).Consistent permits [task] :=
          hconsistent.schedule ready
        exact hheld.poll_of_closed hclosed
  · exact fun inside => hconsistent.shutdown_eq_self hclosed
  · exact exists_reached_drive made

/-- The task that runs closes the pool and then submits another. One task is in line at that point and
one has not been polled yet; both are dropped, and the running task ends. -/
theorem nothing_starts_closed_inside :
    let pool : Pool := { permits := 1, limit := 2 }
    let before : List PoolEvent := [.submit 0 .queued, .poll 0 .starts, .submit 1 .queued,
      .poll 1 .waits, .submit 2 .queued]
    let after : List PoolEvent := [.submit 3 (.refused .shutdown), .finish 0, .poll 1 .gaveUp,
      .poll 2 .gaveUp]
    let p : Pool := { permits := 1, limit := 2, closed := true
                      stages := #[.finished, .dropped, .dropped, .refused] }
    ofLimits? 1 2 = some pool ∧ pool.Reached (before ++ .shutdown :: after) p ∧
      runningIn before = [0] ∧ waitingIn before = [1, 2] ∧ 0 ∈ passed .finished after ∧
      passed .started after = [] ∧ 1 ∈ passed .dropped after ∧ 2 ∈ passed .dropped after ∧
      p.queued = 0 := by
  intro pool before after p
  have made : ofLimits? 1 2 = some pool := rfl
  have hrun : pool.Reached [.submit 0 .queued, .poll 0 .starts]
      { permits := 0, limit := 2, stages := #[.running] } :=
    (Reached.start.step (.submit false)).step (@Step.poll _ 0 [] [] (.refl _))
  have hline : pool.Reached
      [.submit 0 .queued, .poll 0 .starts, .submit 1 .queued, .poll 1 .waits]
      { permits := 0, limit := 2, queued := 1, line := [1], stages := #[.running, .waiting] } :=
    (hrun.step (.submit true)).step (@Step.poll _ 1 [] [] (.refl _))
  have hwaiting : pool.Reached before
      { permits := 0, limit := 2, queued := 2, line := [1], inner := [2]
        stages := #[.running, .waiting, .spawned] } :=
    hline.step (.submit true)
  have hclosed : pool.Reached (before ++ [.shutdown])
      { permits := 0, limit := 2, queued := 2, closed := true, inner := [2, 1]
        stages := #[.running, .waiting, .spawned] } :=
    hwaiting.step (.shutdown true)
  have reached : pool.Reached (before ++ .shutdown :: after) p :=
    (((hclosed.step (.submit true)).step (@Step.finish _ 0 rfl)).step
      (@Step.poll _ 1 [2] [] (.swap ..))).step (@Step.poll _ 2 [] [] (.refl _))
  obtain ⟨-, hstarted, -, -, -, hends, hdrops, hqueued, -⟩ := nothing_starts_closed made reached
  have hidle : p.IsIdle := ⟨rfl, rfl⟩
  have hrunning : runningIn before = [0] := by decide
  have hwaits : waitingIn before = [1, 2] := by decide
  refine ⟨made, reached, hrunning, hwaits, ?_, hstarted, ?_, ?_, hqueued (.inl hidle)⟩
  · refine (hends 0 (hrunning ▸ List.mem_cons_self)).2.resolve_right fun step => ?_
    cases step with
    | finish running => exact absurd running (by decide)
  · exact (hdrops 1 (hwaits ▸ List.mem_cons_self)).2 (.inl hidle)
  · exact (hdrops 2 (hwaits ▸ List.mem_cons_of_mem _ List.mem_cons_self)).2 (.inl hidle)

end

end Prefilter.Pool
