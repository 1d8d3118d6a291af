import Prefilter.Routing.Policy

namespace Prefilter.OrderingPolicy

variable {p : OrderingPolicy} {outcomes : List (ShardTarget × Outcome)} {sort : Option SortSpec}

/-- The candidate for a place in routing order. -/
def candidateAt (p : OrderingPolicy) (outcomes : List (ShardTarget × Outcome)) (position : Nat)
    (target : ShardTarget) (outcome : Outcome) : Candidate where
  target
  outcome
  position
  skip := !outcome.matched && !(p.keepsFirst outcomes && position == 0)

theorem order_shards_perm (p : OrderingPolicy) (outcomes : List (ShardTarget × Outcome))
    (sort : Option SortSpec) :
    (p.order outcomes sort).shards.Perm ((p.candidates outcomes).map Candidate.routed) := by
  simp only [order]
  split
  · split
    · exact (List.mergeSort_perm _ _).map _
    · exact .refl _
  · exact .refl _

theorem order_failed (p : OrderingPolicy) (outcomes : List (ShardTarget × Outcome))
    (sort : Option SortSpec) :
    (p.order outcomes sort).summary.failed = outcomes.countP (·.2.failed) := by
  simp only [order]
  split
  · split <;> rfl
  · rfl

theorem mem_candidates {x : Candidate} :
    x ∈ p.candidates outcomes ↔ ∃ (i : Nat) (target : ShardTarget) (outcome : Outcome),
      outcomes[i]? = some (target, outcome) ∧ x = p.candidateAt outcomes i target outcome := by
  simp only [candidates, List.mem_map, Prod.exists, List.mem_zipIdx_iff_getElem?]
  constructor
  · rintro ⟨target, outcome, i, hi, rfl⟩
    exact ⟨i, target, outcome, hi, rfl⟩
  · rintro ⟨i, target, outcome, hi, rfl⟩
    exact ⟨target, outcome, i, hi, rfl⟩

theorem map_target_order_shards_perm (p : OrderingPolicy) (outcomes : List (ShardTarget × Outcome))
    (sort : Option SortSpec) :
    ((p.order outcomes sort).shards.map (·.target)).Perm (outcomes.map Prod.fst) := by
  have htargets : ((p.candidates outcomes).map Candidate.routed).map (·.target) =
      (outcomes.zipIdx.map Prod.fst).map Prod.fst := by
    rw [candidates, List.map_map, List.map_map, List.map_map]
    rfl
  rw [List.zipIdx_map_fst] at htargets
  exact htargets ▸ (p.order_shards_perm outcomes sort).map _

theorem mem_order_shards {x : RoutedShard} :
    x ∈ (p.order outcomes sort).shards ↔ ∃ (i : Nat) (target : ShardTarget) (outcome : Outcome),
      outcomes[i]? = some (target, outcome) ∧ (p.candidateAt outcomes i target outcome).routed = x := by
  rw [(p.order_shards_perm outcomes sort).mem_iff, List.mem_map]
  constructor
  · rintro ⟨y, hy, rfl⟩
    obtain ⟨i, target, outcome, hi, rfl⟩ := mem_candidates.mp hy
    exact ⟨i, target, outcome, hi, rfl⟩
  · rintro ⟨i, target, outcome, hi, rfl⟩
    exact ⟨_, mem_candidates.mpr ⟨i, target, outcome, hi, rfl⟩, rfl⟩

theorem eq_routed_of_mem {x : RoutedShard} {target : ShardTarget} {outcome : Outcome}
    (distinct : (outcomes.map Prod.fst).Nodup) (mem : (target, outcome) ∈ outcomes)
    (delivered : x ∈ (p.order outcomes sort).shards) (same : x.target = target) :
    ∃ i, x = (p.candidateAt outcomes i target outcome).routed := by
  obtain ⟨i, hi⟩ := List.getElem?_of_mem mem
  obtain ⟨j, target', outcome', hj, rfl⟩ := mem_order_shards.mp delivered
  obtain rfl : target' = target := same
  have hlt : j < (outcomes.map Prod.fst).length := by
    rw [List.length_map]
    exact (List.getElem?_eq_some_iff.mp hj).1
  have hsame : (outcomes.map Prod.fst)[j]? = (outcomes.map Prod.fst)[i]? := by
    simp [hi, hj]
  obtain rfl := (List.getElem?_inj hlt distinct).mp hsame
  obtain rfl : outcome' = outcome := (Prod.mk.inj (Option.some.inj (hj.symm.trans hi))).2
  exact ⟨j, rfl⟩

theorem matched_eq_false_of_skip {i : Nat} {target : ShardTarget} {outcome : Outcome}
    (h : (p.candidateAt outcomes i target outcome).routed.skip = true) : outcome.matched = false := by
  simp only [Candidate.routed, candidateAt, Bool.and_eq_true, Bool.not_eq_true'] at h
  exact h.1

end Prefilter.OrderingPolicy
