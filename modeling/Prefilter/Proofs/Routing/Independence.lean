import Mathlib
import Prefilter.Proofs.Routing.Arrangement

namespace Prefilter

open Std

/-- The shards differ in index, ordinal or cluster. -/
def DistinctShards (outcomes : List (ShardTarget × Outcome)) : Prop :=
  outcomes.Pairwise fun a b => ¬ (a.1.shard = b.1.shard ∧ a.1.cluster = b.1.cluster)

theorem HaveOneKind.of_perm {outcomes again : List (ShardTarget × Outcome)} (h : HaveOneKind outcomes)
    (perm : again.Perm outcomes) : HaveOneKind again := by
  obtain ⟨⟨o, ho, hbound⟩, kind, hall⟩ := h
  exact ⟨⟨o, perm.mem_iff.mpr ho, hbound⟩, kind, fun o ho => hall o (perm.mem_iff.mp ho)⟩

namespace OrderingPolicy

variable {p : OrderingPolicy} {outcomes again : List (ShardTarget × Outcome)} {order : SortOrder}
  {sort : Option SortSpec} {i j : Fin outcomes.length}

/-- Shards by bound and identity, wherever they were routed. -/
def compareShards (order : SortOrder) (a b : ShardTarget × Outcome) : Ordering :=
  (compareOptional order a.2.bound b.2.bound).then (a.1.compareIdentity b.1)

theorem compareShards_eq_compareLex : compareShards order =
    compareLex (fun a b => compareOptional order a.2.bound b.2.bound)
      fun a b => a.1.compareIdentity b.1 := rfl

instance (order : SortOrder) : TransCmp (compareShards order) := by
  have := transCmp_comap (compareOptional order) fun o : ShardTarget × Outcome => o.2.bound
  have := transCmp_comap ShardTarget.compareIdentity fun o : ShardTarget × Outcome => o.1
  rw [compareShards_eq_compareLex]
  infer_instance

/-- The shards in visiting order. -/
def visited (order : SortOrder) (outcomes : List (ShardTarget × Outcome)) :
    List (ShardTarget × Outcome) :=
  (visits order outcomes).map outcomes.get

theorem visited_perm (order : SortOrder) (outcomes : List (ShardTarget × Outcome)) :
    (visited order outcomes).Perm outcomes := by
  have hmap := (visits_perm order outcomes).map outcomes.get
  exact hmap.trans (.of_eq (List.map_get_finRange outcomes))

theorem compareShards_of_visitedBefore (distinct : DistinctShards outcomes) (h : HaveOneKind outcomes)
    (before : VisitedBefore order outcomes i j) :
    compareShards order (outcomes.get i) (outcomes.get j) = .lt := by
  have hlt := (comparePositions_eq_lt_iff h).mpr before
  rw [comparePositions, ← Ordering.then_assoc, Ordering.then_eq_lt] at hlt
  rcases hlt with hlt | ⟨htie, hposition⟩
  · exact hlt
  · have hidentity := ShardTarget.compareIdentity_eq_eq_iff.mp (Ordering.then_eq_eq.mp htie).2
    exact absurd hidentity
      (List.pairwise_iff_getElem.mp distinct i j i.isLt j.isLt (Std.compare_eq_lt.mp hposition))

theorem pairwise_visited (distinct : DistinctShards outcomes) (h : HaveOneKind outcomes) :
    (visited order outcomes).Pairwise fun a b => compareShards order a b = .lt := by
  rw [visited, List.pairwise_map]
  exact (pairwise_visits h).imp fun before => compareShards_of_visitedBefore distinct h before

theorem visited_of_perm (perm : again.Perm outcomes) (distinct : DistinctShards outcomes)
    (h : HaveOneKind outcomes) : visited order again = visited order outcomes := by
  have hdistinct : DistinctShards again :=
    perm.symm.pairwise distinct fun hne heq => hne ⟨heq.1.symm, heq.2.symm⟩
  refine List.Perm.eq_of_pairwise ?_ (pairwise_visited hdistinct (h.of_perm perm))
    (pairwise_visited distinct h)
    ((visited_perm order again).trans (perm.trans (visited_perm order outcomes).symm))
  intro a b _ _ hab hba
  rw [@OrientedCmp.eq_swap _ (compareShards order), hab] at hba
  cases hba

theorem exists_spec_of_sorted (sorted : (p.order outcomes sort).summary.sorted = true) :
    ∃ spec, sort = some spec ∧ HaveOneKind outcomes := by
  by_contra hnot
  have hunsorted : ∀ spec, sort = some spec → ¬ HaveOneKind outcomes :=
    fun spec hspec hkind => hnot ⟨spec, hspec, hkind⟩
  rw [order_shards_of_not_haveOneKind p hunsorted] at sorted
  cases sorted

theorem sorted_of_haveOneKind (p : OrderingPolicy) (h : HaveOneKind outcomes) (spec : SortSpec) :
    (p.order outcomes (some spec)).summary.sorted = true := by
  simp only [OrderingPolicy.order, isSortable_iff.mpr h, if_true, OrderedShards.ofShards]

theorem map_target_order_shards (p : OrderingPolicy) (h : HaveOneKind outcomes) (spec : SortSpec) :
    (p.order outcomes (some spec)).shards.map (·.target) =
      (visited spec.order outcomes).map Prod.fst := by
  rw [order_shards_of_haveOneKind p h, visited, List.map_map, List.map_map]
  rfl

theorem order_shards_of_not_keepsFirst (h : HaveOneKind outcomes) (spec : SortSpec)
    (keeps : p.keepsFirst outcomes = false) :
    (p.order outcomes (some spec)).shards =
      (visited spec.order outcomes).map fun o => { target := o.1, skip := !o.2.matched } := by
  rw [order_shards_of_haveOneKind p h, visited, List.map_map]
  refine List.map_congr_left fun i _ => ?_
  simp [delivered, keeps]

/-- Where no shard matches and one is kept, that is the first in routing order. -/
theorem toQuery_of_keepsFirst (h : HaveOneKind outcomes) (spec : SortSpec)
    (keeps : p.keepsFirst outcomes = true) :
    ∃ first, outcomes.head? = some first ∧
      (p.order outcomes (some spec)).toQuery = [{ target := first.1, skip := false }] := by
  have hpos : 0 < outcomes.length := by
    obtain ⟨⟨o, ho, -⟩, -⟩ := h
    exact List.length_pos_of_mem ho
  have hunmatched (i : Fin outcomes.length) : outcomes[i].2.matched = false :=
    ((keepsFirst_iff i).mp keeps).2 _ (List.getElem_mem i.isLt)
  have hkept (i : Fin outcomes.length) :
      (!(p.delivered outcomes i).skip) = decide (i = ⟨0, hpos⟩) := by
    simp only [delivered, hunmatched, keeps, Fin.ext_iff]
    cases i.val <;> rfl
  have hnodup : (visits spec.order outcomes).Nodup :=
    (visits_perm spec.order outcomes).nodup_iff.mpr (List.nodup_finRange _)
  have hmem : ⟨0, hpos⟩ ∈ visits spec.order outcomes :=
    (visits_perm spec.order outcomes).mem_iff.mpr (List.mem_finRange _)
  refine ⟨outcomes[0], List.head?_eq_getElem? .. ▸ List.getElem?_eq_getElem hpos, ?_⟩
  rw [OrderedShards.toQuery, order_shards_of_haveOneKind p h, List.filter_map, Function.comp_def]
  simp only [hkept]
  rw [List.filter_eq, List.count_eq_one_of_mem hnodup hmem, List.replicate_one, List.map_singleton]
  simp only [delivered, hunmatched, keeps]
  rfl

theorem keepsFirst_of_perm (p : OrderingPolicy) (perm : again.Perm outcomes) :
    p.keepsFirst again = p.keepsFirst outcomes := by
  rw [keepsFirst, keepsFirst, perm.all_eq, perm.isEmpty_eq]

theorem skipped_eq (p : OrderingPolicy) (outcomes : List (ShardTarget × Outcome))
    (sort : Option SortSpec) :
    (p.order outcomes sort).summary.skipped =
      (p.order outcomes sort).summary.total - (p.order outcomes sort).toQuery.length := by
  obtain ⟨htotal, hskipped⟩ := order_summary p outcomes sort
  have hquery := length_toQuery_add_countP (p.order outcomes sort)
  omega

theorem summary_of_perm (perm : again.Perm outcomes) (h : HaveOneKind outcomes) (spec : SortSpec)
    (queried : (p.order again (some spec)).toQuery.length =
      (p.order outcomes (some spec)).toQuery.length) :
    (p.order again (some spec)).summary = (p.order outcomes (some spec)).summary := by
  have htotal : (p.order again (some spec)).summary.total =
      (p.order outcomes (some spec)).summary.total := by
    have hlength (list : List (ShardTarget × Outcome)) :=
      (map_target_order_shards_perm p list (some spec)).length_eq
    simp only [List.length_map] at hlength
    rw [(order_summary p again _).1, (order_summary p outcomes _).1, hlength, hlength,
      perm.length_eq]
  have hfailed : (p.order again (some spec)).summary.failed =
      (p.order outcomes (some spec)).summary.failed := by
    rw [order_failed, order_failed, perm.countP_eq]
  have hskipped : (p.order again (some spec)).summary.skipped =
      (p.order outcomes (some spec)).summary.skipped := by
    rw [skipped_eq, skipped_eq, htotal, queried]
  have hsorted : (p.order again (some spec)).summary.sorted =
      (p.order outcomes (some spec)).summary.sorted := by
    rw [sorted_of_haveOneKind p h, sorted_of_haveOneKind p (h.of_perm perm)]
  cases hagain : (p.order again (some spec)).summary
  cases houtcomes : (p.order outcomes (some spec)).summary
  simp_all

/-- Where a result is sorted, the order in which different shards were routed does not show in it: the
shards come in the same sequence and with the same summary, and they bear the same flags. Only where no
shard matches and one is kept do the flags differ: it is the one that was routed first. -/
theorem order_of_perm (p : OrderingPolicy) (sort : Option SortSpec) (perm : again.Perm outcomes)
    (distinct : DistinctShards outcomes)
    (sorted : (p.order outcomes sort).summary.sorted = true) :
    (p.order again sort).shards.map (·.target) = (p.order outcomes sort).shards.map (·.target) ∧
    (p.order again sort).summary = (p.order outcomes sort).summary ∧
    (¬ (p.keepOne = true ∧ ∀ o ∈ outcomes, o.2.matched = false) →
      (p.order again sort).shards = (p.order outcomes sort).shards) ∧
    (p.keepOne = true ∧ (∀ o ∈ outcomes, o.2.matched = false) →
      ∃ first firstAgain, outcomes.head? = some first ∧ again.head? = some firstAgain ∧
        (p.order outcomes sort).toQuery = [{ target := first.1, skip := false }] ∧
        (p.order again sort).toQuery = [{ target := firstAgain.1, skip := false }]) := by
  obtain ⟨spec, rfl, h⟩ := exists_spec_of_sorted sorted
  have hagain := h.of_perm perm
  have hvisited : visited spec.order again = visited spec.order outcomes :=
    visited_of_perm perm distinct h
  have hkeeps : p.keepsFirst outcomes = true ↔
      p.keepOne = true ∧ ∀ o ∈ outcomes, o.2.matched = false := by
    obtain ⟨⟨o, ho, -⟩, -⟩ := h
    exact keepsFirst_iff ⟨0, List.length_pos_of_mem ho⟩
  refine ⟨?_, ?_⟩
  · rw [map_target_order_shards p hagain, map_target_order_shards p h, hvisited]
  cases hfirst : p.keepsFirst outcomes with
  | true =>
      obtain ⟨first, hhead, hquery⟩ := toQuery_of_keepsFirst h spec hfirst
      obtain ⟨firstAgain, hheadAgain, hqueryAgain⟩ :=
        toQuery_of_keepsFirst hagain spec (keepsFirst_of_perm p perm ▸ hfirst)
      refine ⟨summary_of_perm perm h spec (by rw [hquery, hqueryAgain]; rfl),
        fun hnot => absurd (hkeeps.mp hfirst) hnot, fun _ => ?_⟩
      exact ⟨first, firstAgain, hhead, hheadAgain, hquery, hqueryAgain⟩
  | false =>
      have hshards : (p.order again (some spec)).shards = (p.order outcomes (some spec)).shards := by
        rw [order_shards_of_not_keepsFirst hagain spec (keepsFirst_of_perm p perm ▸ hfirst),
          order_shards_of_not_keepsFirst h spec hfirst, hvisited]
      refine ⟨summary_of_perm perm h spec ?_, fun _ => hshards, fun hkept => ?_⟩
      · rw [OrderedShards.toQuery, hshards, OrderedShards.toQuery]
      · simp [hkeeps.mpr hkept] at hfirst

/-- Three shards without a match, two of them with one bound. -/
def unmatchedTie : List (ShardTarget × Outcome) :=
  let shard (index : String) (bound : Option Bound) : ShardTarget × Outcome :=
    ({ shard := { index := ⟨index⟩, ordinal := 0 } }, .success false bound)
  [shard "c" none, shard "b" (some (.long 1 2)), shard "a" (some (.long 1 9))]

theorem order_of_perm_unmatchedTie :
    unmatchedTie.reverse.Perm unmatchedTie ∧ DistinctShards unmatchedTie ∧
      ((OrderingPolicy.order {} unmatchedTie.reverse (some { field := "ts" })).shards.map
          (·.target.shard.index.text) = ["a", "b", "c"] ∧
        (OrderingPolicy.order {} unmatchedTie (some { field := "ts" })).shards.map
          (·.target.shard.index.text) = ["a", "b", "c"]) ∧
      ((OrderingPolicy.order {} unmatchedTie.reverse (some { field := "ts" })).shards.map (·.skip) =
          [false, true, true] ∧
        (OrderingPolicy.order {} unmatchedTie (some { field := "ts" })).shards.map (·.skip) =
          [true, true, false]) ∧
      (OrderingPolicy.order {} unmatchedTie.reverse (some { field := "ts" })).summary =
        (OrderingPolicy.order {} unmatchedTie (some { field := "ts" })).summary := by
  have hdistinct : DistinctShards unmatchedTie := by
    rw [DistinctShards]
    decide +kernel
  have hperm := List.reverse_perm unmatchedTie
  obtain ⟨-, hsummary, -, -⟩ := order_of_perm {} (some { field := "ts" }) hperm hdistinct (by cbv)
  exact ⟨hperm, hdistinct, ⟨by cbv, by cbv⟩, ⟨by cbv, by cbv⟩, hsummary⟩

end OrderingPolicy
end Prefilter
