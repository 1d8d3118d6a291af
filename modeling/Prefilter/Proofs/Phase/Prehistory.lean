import Prefilter.Proofs.Phase.Congruence
import Prefilter.Proofs.Phase.Run

namespace Prefilter.Coordinator

variable {c c' s : Coordinator} {earlier : Array Event} {moves : List Move}

/-- The coordinator as it is where other events came before its own. -/
def following (earlier : Array Event) (c : Coordinator) : Coordinator :=
  { c with trace := earlier ++ c.trace }

theorem emit_following (e : Event) : (c.following earlier).emit e = (c.emit e).following earlier := by
  simp [emit, following]

theorem congruence_following (earlier : Array Event) :
    Congruence fun c c' => c' = c.following earlier where
  policy := by
    rintro c _ rfl
    rfl
  phases := by
    rintro c _ rfl
    rfl
  tasks := by
    rintro c _ rfl
    rfl
  attempts := by
    rintro c _ rfl
    rfl
  emit := by
    rintro c _ rfl e
    exact emit_following e
  setPhases := by
    rintro c _ rfl phases
    rfl
  setTasks := by
    rintro c _ rfl tasks
    rfl
  push := by
    rintro c _ rfl f
    rfl
  pop := by
    rintro c _ rfl f stack top
    exact ⟨stack, top, rfl⟩
  addProbe := by
    rintro c _ rfl p
    rfl

theorem step_following (m : Move) :
    ((c.following earlier).step m).coordinator = (c.step m).coordinator.following earlier :=
  (congruence_following earlier).step_of_probes rfl (fun _ => id) rfl fun _ => rfl

theorem Run.following (run : Run (fun _ _ => True) s moves c) :
    Run (fun _ _ => True) (s.following earlier) moves (c.following earlier) := by
  induction run with
  | nil => exact .nil
  | move _ _ ih => exact step_following _ ▸ ih.move trivial
  | reorder _ perm ih => exact ih.reorder perm

/-- What a coordinator with a longer past can become is what it can become without it. -/
theorem run_following_iff : Run (fun _ _ => True) (s.following earlier) moves c' ↔
    ∃ c, Run (fun _ _ => True) s moves c ∧ c' = c.following earlier := by
  constructor
  · intro run
    induction run with
    | nil => exact ⟨s, .nil, rfl⟩
    | @move _ _ m _ _ ih =>
        obtain ⟨c, hrun, rfl⟩ := ih
        exact ⟨_, hrun.move trivial, step_following m⟩
    | reorder _ perm ih =>
        obtain ⟨c, hrun, rfl⟩ := ih
        exact ⟨_, hrun.reorder perm, rfl⟩
  · rintro ⟨c, hrun, rfl⟩
    exact hrun.following

end Prefilter.Coordinator
