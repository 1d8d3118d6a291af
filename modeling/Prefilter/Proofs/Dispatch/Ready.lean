import Prefilter.Dispatch.Pool

namespace Prefilter.Pool

variable {p : Pool} {permits limit task : Nat} {tasks : List Nat}

/-- The pool is open, all its permits are free, and just these tasks are queued, in this order. -/
structure Ready (permits limit : Nat) (tasks : List Nat) (p : Pool) : Prop where
  pool_eq : p = { permits, limit, queued := tasks.length, stages := p.stages, outer := tasks,
                  turns := p.turns }
  spawned : ∀ task ∈ tasks, p.stages[task]? = some .spawned
  nodup : tasks.Nodup

namespace Ready

theorem ofLimits (h : ofLimits? permits limit = some p) : p.Ready permits limit [] := by
  rw [ofLimits?] at h
  split at h
  · obtain rfl := Option.some.inj h
    exact ⟨rfl, by simp, .nil⟩
  · cases h

theorem lt_size (h : p.Ready permits limit tasks) (hmem : task ∈ tasks) : task < p.stages.size :=
  (Array.getElem?_eq_some_iff.mp (h.spawned task hmem)).1

theorem spawned_push (h : p.Ready permits limit tasks) (stage : Stage) :
    ∀ task ∈ tasks, (p.stages.push stage)[task]? = some .spawned := by
  intro t ht
  simpa [Array.getElem?_push, Nat.ne_of_lt (h.lt_size ht)] using h.spawned t ht

theorem submit (h : p.Ready permits limit tasks) (room : tasks.length < limit) :
    (p.submit false).2 = .queued ∧
      (p.submit false).1.Ready permits limit (tasks ++ [p.stages.size]) := by
  have hsubmit : p.submit false =
      ({ permits, limit, queued := tasks.length + 1, stages := p.stages.push .spawned,
         outer := tasks ++ [p.stages.size], turns := p.turns }, .queued) := by
    rw [h.pool_eq]
    simp [Pool.submit, wake, Nat.not_le.mpr room]
  rw [hsubmit]
  refine ⟨rfl, by simp, ?_, ?_⟩
  · intro t ht
    rcases List.mem_append.mp ht with hold | hnew
    · exact h.spawned_push .spawned t hold
    · obtain rfl := List.mem_singleton.mp hnew
      exact Array.getElem?_push_size
  · refine List.nodup_append.mpr ⟨h.nodup, by simp, fun t ht u hu heq => ?_⟩
    obtain rfl := List.mem_singleton.mp hu
    exact Nat.ne_of_lt (h.lt_size ht) heq

theorem submit_full (h : p.Ready permits limit tasks) (full : limit ≤ tasks.length) :
    (p.submit false).2 = .refused (.rejected tasks.length limit) ∧
      (p.submit false).1.Ready permits limit tasks := by
  have hsubmit : p.submit false =
      ({ permits, limit, queued := tasks.length, stages := p.stages.push .refused,
         outer := tasks, turns := p.turns }, .refused (.rejected tasks.length limit)) := by
    rw [h.pool_eq]
    simp [Pool.submit, full]
  rw [hsubmit]
  exact ⟨rfl, rfl, h.spawned_push .refused, h.nodup⟩

theorem turn_nil (h : p.Ready permits limit []) :
    p.turn.2 = none ∧ p.turn.1.Ready permits limit [] ∧ p.turn.1.stages = p.stages := by
  have hturn : p.turn = ({ p with turns := p.turns + 1 }, none) := by
    rw [h.pool_eq]
    rfl
  rw [hturn]
  refine ⟨rfl, ⟨?_, by simp, .nil⟩, rfl⟩
  rw [h.pool_eq]

/-- The first task is polled next; it runs at once, and once it has run the others are left. -/
theorem run (h : p.Ready permits limit (task :: tasks)) (hpermits : 0 < permits) :
    p.turn.2 = some task ∧ (p.turn.1.poll task).2 = .starts ∧
      ((p.turn.1.poll task).1.finish task).Ready permits limit tasks ∧
      ((p.turn.1.poll task).1.finish task).stages.size = p.stages.size := by
  have hlt := h.lt_size (List.mem_cons_self (l := tasks))
  have hturn : p.turn =
      ({ permits, limit, queued := tasks.length + 1, outer := tasks, turns := p.turns + 1
         stages := p.stages }, some task) := by
    rw [h.pool_eq]
    rfl
  have hpoll : p.turn.1.poll task =
      ({ permits := permits - 1, limit, queued := tasks.length, outer := tasks, turns := p.turns + 1
         stages := p.stages.setIfInBounds task .running }, .starts) := by
    rw [hturn]
    simp [poll, h.spawned task List.mem_cons_self, hpermits, setStage]
  have hfinish : (p.turn.1.poll task).1.finish task =
      { permits, limit, queued := tasks.length, outer := tasks, turns := p.turns + 1
        stages := (p.stages.setIfInBounds task .running).setIfInBounds task .finished } := by
    rw [hpoll]
    simp [finish, hlt, setStage, Nat.sub_add_cancel hpermits]
  obtain ⟨hfirst, hrest⟩ := List.nodup_cons.mp h.nodup
  rw [hfinish]
  refine ⟨by rw [hturn], by rw [hpoll], ⟨rfl, ?_, hrest⟩, by simp⟩
  intro t ht
  have hne : task ≠ t := fun heq => hfirst (heq ▸ ht)
  simpa [Array.getElem?_setIfInBounds, hne] using h.spawned t (List.mem_cons_of_mem _ ht)

end Ready
end Prefilter.Pool
