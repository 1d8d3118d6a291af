import Prefilter.Proofs.Dispatch.History

namespace Prefilter.Pool

variable {p p' : Pool} {max task : Nat} {inside : Bool} {history : List PoolEvent}
  {event : PoolEvent} {error : DispatchError}

/-- A permit was handed to the task, whose future has not resumed since. -/
def IsGranted (p : Pool) (task : Nat) : Prop := p.stages[task]? = some .granted

theorem count_granted_eq_zero_iff : p.stages.count .granted = 0 ↔ ∀ task, ¬ p.IsGranted task := by
  rw [Array.count_eq_zero, Array.mem_iff_getElem?, not_exists]
  exact Iff.rfl

theorem submit_eq_refused_iff : (p.submit inside).2 = .refused error ↔
    (p.closed = true ∧ error = .shutdown) ∨
      p.closed = false ∧ p.limit ≤ p.queued ∧ error = .rejected p.queued p.limit := by
  unfold submit
  split_ifs <;> simp [*, eq_comm]

theorem submit_of_refused (refused : (p.submit inside).2 = .refused error) :
    (p.submit inside).1 = { p with stages := p.stages.push .refused } := by
  unfold submit at refused ⊢
  split_ifs at refused ⊢ <;> rfl

theorem submit_queued : (p.submit inside).1.queued +
    (PoolEvent.passing .dropped (.submit task (p.submit inside).2)).length =
      p.queued + (PoolEvent.passing .accepted (.submit task (p.submit inside).2)).length := by
  unfold submit
  split_ifs <;> simp [PoolEvent.passing]

theorem Consistent.queued_pos {held : List Nat} (h : p.Consistent max held)
    (queued : task ∈ p.queuedTasks) : 0 < p.queued :=
  h.queued_eq ▸ List.length_pos_of_mem queued

theorem Consistent.poll_queued (h : p.Consistent max [task]) :
    (p.poll task).1.queued + (PoolEvent.passing .started (.poll task (p.poll task).2)).length +
      (PoolEvent.passing .dropped (.poll task (p.poll task).2)).length = p.queued := by
  have hpos := h.queued_pos (h.futures_perm.mem_iff.mp List.mem_cons_self)
  have hpolled := h.polled
  generalize p.poll task = result at hpolled
  cases hpolled with
  | starts | resumes => simpa [PoolEvent.passing] using Nat.sub_add_cancel hpos
  | waits => rfl
  | gaveUp => simpa [PoolEvent.passing] using Nat.sub_add_cancel hpos

/-- What an event takes from the queue was in it, or came to it in that event. -/
theorem Step.queued_add (h : p.Consistent max []) (step : p.Step event p') :
    p'.queued + (event.passing .started).length + (event.passing .dropped).length =
      p.queued + (event.passing .accepted).length := by
  cases step with
  | submit => exact submit_queued
  | @poll task inner outer ready =>
      have hheld : ({ p with inner, outer } : Pool).Consistent max [task] := h.schedule ready
      exact hheld.poll_queued
  | finish running =>
      obtain ⟨_, _, -, hfinish⟩ | ⟨-, hfinish⟩ := p.finish_cases running <;>
        simp [hfinish, PoolEvent.passing]
  | shutdown => simp [Pool.shutdown, PoolEvent.passing]
  | dropRuntime =>
      have hdropped : p.dropRuntime.1.queued + p.dropRuntime.2.length = p.queued :=
        Nat.sub_add_cancel (Nat.le_of_eq h.queued_eq.symm)
      simpa [PoolEvent.passing] using hdropped

/-- Whatever has happened to a pool, its queue counts just the accepted tasks that have neither resumed
nor been dropped. There are never more of them than the limit allows, and none is taken from the count
that is not in it. No more tasks run than there are permits, and none of them counts as queued; the
free permits and the running tasks together make up all permits, but for those that were handed to a
task which has not resumed yet. A submission is refused just when the pool has been closed or its queue
is full, and a refusal leaves both counters alone. -/
theorem queue_accounted {permits limit : Nat} {pool : Pool}
    (made : ofLimits? permits limit = some pool) (reached : pool.Reached history p) :
    p.queued = (waitingIn history).length ∧ p.queued ≤ limit ∧
    (∀ event p', p.Step event p' →
      p'.queued + (event.passing .started).length + (event.passing .dropped).length =
        p.queued + (event.passing .accepted).length) ∧
    p.permits + (runningIn history).length ≤ permits ∧
    (p.permits + (runningIn history).length = permits ↔ ∀ task, ¬ p.IsGranted task) ∧
    (∀ task, p.IsGranted task → task ∈ waitingIn history) ∧
    (∀ task ∈ runningIn history, task ∉ waitingIn history) ∧
    (∀ inside error, (p.submit inside).2 = .refused error ↔
      (.shutdown ∈ history ∧ error = .shutdown) ∨
        .shutdown ∉ history ∧ (waitingIn history).length = limit ∧ error = .rejected limit limit) ∧
    ∀ inside error, (p.submit inside).2 = .refused error →
      (p.submit inside).1.queued = p.queued ∧ (p.submit inside).1.permits = p.permits := by
  have hrecorded := reached.recorded made
  have hconsistent := hrecorded.consistent
  have hqueued := hrecorded.queued_eq
  have hle : p.queued ≤ limit := hrecorded.limit_eq ▸ hconsistent.queued_le
  have hpermits := hconsistent.permits_eq
  rw [← hrecorded.length_runningIn] at hpermits
  refine ⟨hqueued, hle, fun _ _ step => step.queued_add hconsistent, ?_, ?_, ?_, ?_, ?_, ?_⟩
  · omega
  · rw [← count_granted_eq_zero_iff]
    omega
  · intro task hgranted
    exact hrecorded.mem_waitingIn_iff.mpr (mem_queuedTasks.mpr ⟨_, hgranted, rfl⟩)
  · intro task hrunning hwaiting
    obtain ⟨stage, hstage, hqueued⟩ := mem_queuedTasks.mp (hrecorded.mem_waitingIn_iff.mp hwaiting)
    rw [hrecorded.mem_runningIn_iff.mp hrunning] at hstage
    obtain rfl := Option.some.inj hstage
    cases hqueued
  · intro inside error
    have hfull : limit ≤ p.queued ↔ (waitingIn history).length = limit := by
      rw [← hqueued]
      omega
    rw [submit_eq_refused_iff, hrecorded.closed_iff, ← Bool.not_eq_true, hrecorded.closed_iff,
      hrecorded.limit_eq, hfull]
    refine or_congr_right (and_congr_right fun _ => and_congr_right fun hlength => ?_)
    rw [hqueued, hlength]
  · intro inside error refused
    rw [submit_of_refused refused]
    exact ⟨rfl, rfl⟩

/-- A task that runs submits two others, so that the queue is full and the third is refused. As it ends,
its permit goes to the one of them that stands in line. -/
theorem queue_accounted_handedOver :
    let pool : Pool := { permits := 1, limit := 2 }
    let history : List PoolEvent := [.submit 0 .queued, .poll 0 .starts, .submit 1 .queued,
      .submit 2 .queued, .submit 3 (.refused (.rejected 2 2)), .poll 1 .waits, .finish 0]
    let p : Pool := { permits := 0, limit := 2, queued := 2, inner := [2, 1]
                      stages := #[.finished, .granted, .spawned, .refused] }
    ofLimits? 1 2 = some pool ∧ pool.Reached history p ∧ waitingIn history = [1, 2] ∧ p.queued = 2 ∧
      p.IsGranted 1 ∧ p.permits + (runningIn history).length < 1 ∧
      (p.submit true).2 = .refused (.rejected 2 2) := by
  intro pool history p
  have made : ofLimits? 1 2 = some pool := rfl
  have hstarted : pool.Reached [.submit 0 .queued, .poll 0 .starts]
      { permits := 0, limit := 2, stages := #[.running] } :=
    (Reached.start.step (.submit false)).step (@Step.poll _ 0 [] [] (.refl _))
  have hfull : pool.Reached [.submit 0 .queued, .poll 0 .starts, .submit 1 .queued,
      .submit 2 .queued, .submit 3 (.refused (.rejected 2 2))]
      { permits := 0, limit := 2, queued := 2, inner := [1, 2]
        stages := #[.running, .spawned, .spawned, .refused] } :=
    ((hstarted.step (.submit true)).step (.submit true)).step (.submit true)
  have reached : pool.Reached history p :=
    (hfull.step (@Step.poll _ 1 [2] [] (.refl _))).step (@Step.finish _ 0 rfl)
  obtain ⟨hqueued, -, -, hle, hall, -, -, hrefused, -⟩ := queue_accounted made reached
  have hgranted : p.IsGranted 1 := rfl
  refine ⟨made, reached, by decide, hqueued.trans (by decide), hgranted, ?_, ?_⟩
  · exact Nat.lt_of_le_of_ne hle fun heq => hall.mp heq 1 hgranted
  · exact (hrefused true _).mpr (.inr ⟨by decide, by decide, rfl⟩)

end Prefilter.Pool
