import Mathlib
import Prefilter.Proofs.Routing.Delivery
import Prefilter.Proofs.Shard.Identity

/-!
The arrangement of the shards. Where the bounds of a phase can be compared, the shards are delivered in
the only arrangement of their routing positions that puts each shard before all that it leads; in every
other case they stay in routing order. Either way each routing position has one place in the delivered
list, where its own shard stands with its own flag, and the counters of the summary are those of the
list.
-/

namespace Prefilter

open Std

/-- The first of two bounds leads; a bound leads where there is none. -/
inductive BoundLeads (order : SortOrder) : Option Bound → Option Bound → Prop where
  | present {a : Bound} : BoundLeads order (some a) none
  | value {a b : Bound} (h : a.Leads order b) : BoundLeads order (some a) (some b)

inductive BoundTies (order : SortOrder) : Option Bound → Option Bound → Prop where
  | absent : BoundTies order none none
  | value {a b : Bound} (h : a.Ties order b) : BoundTies order (some a) (some b)

/-- Why one shard is visited before another, both given by their routing positions. -/
inductive VisitedBefore (order : SortOrder) (outcomes : List (ShardTarget × Outcome))
    (i j : Fin outcomes.length) : Prop where
  | bound (h : BoundLeads order outcomes[i].2.bound outcomes[j].2.bound)
  | ordinal (bounds : BoundTies order outcomes[i].2.bound outcomes[j].2.bound)
      (h : outcomes[i].1.shard.ordinal < outcomes[j].1.shard.ordinal)
  | index (bounds : BoundTies order outcomes[i].2.bound outcomes[j].2.bound)
      (ordinals : outcomes[i].1.shard.ordinal = outcomes[j].1.shard.ordinal)
      (h : Text.utf8 outcomes[i].1.shard.index.text < Text.utf8 outcomes[j].1.shard.index.text)
  | cluster (bounds : BoundTies order outcomes[i].2.bound outcomes[j].2.bound)
      (shards : outcomes[i].1.shard = outcomes[j].1.shard)
      (h : ClusterLeads outcomes[i].1.cluster outcomes[j].1.cluster)
  | position (bounds : BoundTies order outcomes[i].2.bound outcomes[j].2.bound)
      (shards : outcomes[i].1.shard = outcomes[j].1.shard)
      (clusters : outcomes[i].1.cluster = outcomes[j].1.cluster) (h : i < j)

/-- Some bound is known, and all known ones have one kind. -/
def HaveOneKind (outcomes : List (ShardTarget × Outcome)) : Prop :=
  (∃ o ∈ outcomes, ∃ b, o.2.bound = some b) ∧
    ∃ kind, ∀ o ∈ outcomes, ∀ b, o.2.bound = some b → b.kind = kind

theorem mem_boundKinds {outcomes : List (ShardTarget × Outcome)} {kind : BoundKind} :
    kind ∈ boundKinds outcomes ↔ ∃ o ∈ outcomes, ∃ b, o.2.bound = some b ∧ b.kind = kind := by
  simp [boundKinds]

theorem isSortable_iff {outcomes : List (ShardTarget × Outcome)} :
    isSortable outcomes = true ↔ HaveOneKind outcomes := by
  have hmem (kind : BoundKind) := @mem_boundKinds outcomes kind
  rw [isSortable]
  split
  · rename_i hnil
    simp only [hnil, List.not_mem_nil, false_iff] at hmem
    constructor
    · intro h
      cases h
    · rintro ⟨⟨o, ho, b, hb⟩, -⟩
      exact absurd ⟨o, ho, b, hb, rfl⟩ (hmem b.kind)
  · rename_i first others hcons
    rw [List.all_eq_true]
    constructor
    · intro h
      obtain ⟨o, ho, b, hb, -⟩ := (hmem first).mp (hcons ▸ List.mem_cons_self)
      refine ⟨⟨o, ho, b, hb⟩, first, ?_⟩
      intro o' ho' b' hb'
      have hkind : b'.kind ∈ first :: others := hcons ▸ (hmem b'.kind).mpr ⟨o', ho', b', hb', rfl⟩
      rcases List.mem_cons.mp hkind with heq | hother
      · exact heq
      · exact beq_iff_eq.mp (h b'.kind hother)
    · rintro ⟨-, kind, hall⟩ other hother
      obtain ⟨o, ho, b, hb, rfl⟩ := (hmem first).mp (hcons ▸ List.mem_cons_self)
      obtain ⟨o', ho', b', hb', rfl⟩ := (hmem other).mp (hcons ▸ List.mem_cons_of_mem _ hother)
      rw [beq_iff_eq, hall o ho b hb, hall o' ho' b' hb']

/-- Bounds in any mixture, by the ends that decide; none comes last. -/
def compareOptional (order : SortOrder) : Option Bound → Option Bound → Ordering
  | some a, some b => a.compareEnds order b
  | some _, none => .lt
  | none, some _ => .gt
  | none, none => .eq

instance (order : SortOrder) : TransCmp (compareOptional order) where
  eq_swap := by
    intro a b
    cases a <;> cases b <;> simp only [compareOptional]
    · rfl
    · rfl
    · rfl
    · exact OrientedCmp.eq_swap
  isLE_trans := by
    intro a b c
    cases a <;> cases b <;> cases c <;> simp only [compareOptional]
    case some.some.some => exact TransCmp.isLE_trans
    all_goals simp

theorem compareOptional_eq_eq_iff {order : SortOrder} {a b : Option Bound} :
    compareOptional order a b = .eq ↔ BoundTies order a b := by
  constructor
  · intro h
    cases a <;> cases b <;> simp only [compareOptional, reduceCtorEq] at h
    · exact .absent
    · exact .value (Bound.compareEnds_eq_eq_iff.mp h)
  · intro h
    cases h with
    | absent => rfl
    | value h => exact Bound.compareEnds_eq_eq_iff.mpr h

/-- The bounds, where there are two, have one kind. -/
def SameKind (a b : Option Bound) : Prop := ∀ x y, a = some x → b = some y → x.kind = y.kind

theorem HaveOneKind.sameKind {outcomes : List (ShardTarget × Outcome)} (h : HaveOneKind outcomes)
    (i j : Fin outcomes.length) : SameKind outcomes[i].2.bound outcomes[j].2.bound := by
  obtain ⟨-, kind, hall⟩ := h
  intro x y hx hy
  rw [hall _ (List.getElem_mem i.isLt) x hx, hall _ (List.getElem_mem j.isLt) y hy]

theorem compareOptional_eq_lt_iff {order : SortOrder} {a b : Option Bound} (same : SameKind a b) :
    compareOptional order a b = .lt ↔ BoundLeads order a b := by
  constructor
  · intro h
    cases a <;> cases b <;> simp only [compareOptional, reduceCtorEq] at h
    · exact .present
    · exact .value ((Bound.compareEnds_eq_lt_iff (same _ _ rfl rfl)).mp h)
  · intro h
    cases h with
    | present => rfl
    | value h => exact (Bound.compareEnds_eq_lt_iff (same _ _ rfl rfl)).mpr h

theorem compareBound_eq_compareOptional {order : SortOrder} {a b : Option Bound}
    (same : SameKind a b) : Candidate.compareBound order a b = compareOptional order a b := by
  cases a <;> cases b <;> simp only [Candidate.compareBound, compareOptional]
  rw [Bound.compare?_eq_compareEnds (same _ _ rfl rfl), Option.getD_some]

namespace OrderingPolicy

variable {p : OrderingPolicy} {outcomes : List (ShardTarget × Outcome)} {order : SortOrder}
  {i j : Fin outcomes.length}

/-- What is delivered for a routing position. -/
def delivered (p : OrderingPolicy) (outcomes : List (ShardTarget × Outcome))
    (i : Fin outcomes.length) : RoutedShard where
  target := outcomes[i].1
  skip := !outcomes[i].2.matched && !(p.keepsFirst outcomes && i.val == 0)

def candidate (p : OrderingPolicy) (outcomes : List (ShardTarget × Outcome))
    (i : Fin outcomes.length) : Candidate :=
  p.candidateAt outcomes i outcomes[i].1 outcomes[i].2

theorem candidates_eq_map (p : OrderingPolicy) (outcomes : List (ShardTarget × Outcome)) :
    p.candidates outcomes = (List.finRange outcomes.length).map (p.candidate outcomes) := by
  apply List.ext_getElem
  · simp [candidates]
  · intro n hn hn'
    simp [candidates, candidate, candidateAt]

/-- Routing positions in the order of the visits, whatever the kinds of the bounds. -/
def comparePositions (order : SortOrder) (outcomes : List (ShardTarget × Outcome))
    (i j : Fin outcomes.length) : Ordering :=
  (compareOptional order outcomes[i].2.bound outcomes[j].2.bound).then
    ((outcomes[i].1.compareIdentity outcomes[j].1).then (compare i.val j.val))

theorem comparePositions_eq_compareLex :
    comparePositions order outcomes =
      compareLex (fun i j => compareOptional order outcomes[i].2.bound outcomes[j].2.bound)
        (compareLex (fun i j => outcomes[i].1.compareIdentity outcomes[j].1)
          fun i j => compare i.val j.val) := rfl

instance (order : SortOrder) (outcomes : List (ShardTarget × Outcome)) :
    TransCmp (comparePositions order outcomes) := by
  have := transCmp_comap (compareOptional order) fun i : Fin outcomes.length => outcomes[i].2.bound
  have := transCmp_comap ShardTarget.compareIdentity fun i : Fin outcomes.length => outcomes[i].1
  have := transCmp_comap Ord.compare fun i : Fin outcomes.length => i.val
  rw [comparePositions_eq_compareLex]
  infer_instance

theorem eq_of_comparePositions_eq_eq (h : comparePositions order outcomes i j = .eq) : i = j := by
  simp only [comparePositions, Ordering.then_eq_eq] at h
  exact Fin.ext (LawfulEqCmp.eq_of_compare h.2.2)

theorem comparePositions_eq_lt_iff (h : HaveOneKind outcomes) :
    comparePositions order outcomes i j = .lt ↔ VisitedBefore order outcomes i j := by
  have hbound := @compareOptional_eq_lt_iff order _ _ (h.sameKind i j)
  simp only [comparePositions, Ordering.then_eq_lt, hbound,
    compareOptional_eq_eq_iff, ShardTarget.compareIdentity_eq_lt_iff, ShardId.compare_eq_lt_iff,
    ShardTarget.compareIdentity_eq_eq_iff, Std.compare_eq_lt]
  constructor
  · rintro (h | ⟨ties, ((h | ⟨hordinal, h⟩) | ⟨hshard, h⟩) | ⟨⟨hshard, hcluster⟩, h⟩⟩)
    · exact .bound h
    · exact .ordinal ties h
    · exact .index ties hordinal h
    · exact .cluster ties hshard h
    · exact .position ties hshard hcluster h
  · intro h
    cases h with
    | bound h => exact .inl h
    | ordinal ties h => exact .inr ⟨ties, .inl (.inl (.inl h))⟩
    | index ties hordinal h => exact .inr ⟨ties, .inl (.inl (.inr ⟨hordinal, h⟩))⟩
    | cluster ties hshard h => exact .inr ⟨ties, .inl (.inr ⟨hshard, h⟩)⟩
    | position ties hshard hcluster h => exact .inr ⟨ties, .inr ⟨⟨hshard, hcluster⟩, h⟩⟩

theorem compare_candidate (h : HaveOneKind outcomes) :
    Candidate.compare order (p.candidate outcomes i) (p.candidate outcomes j) =
      comparePositions order outcomes i j := by
  rw [comparePositions, ← compareBound_eq_compareOptional (h.sameKind i j)]
  rfl

/-- The routing positions in visiting order. -/
def visits (order : SortOrder) (outcomes : List (ShardTarget × Outcome)) :
    List (Fin outcomes.length) :=
  (List.finRange outcomes.length).mergeSort fun i j => (comparePositions order outcomes i j).isLE

theorem visits_perm (order : SortOrder) (outcomes : List (ShardTarget × Outcome)) :
    (visits order outcomes).Perm (List.finRange outcomes.length) :=
  List.mergeSort_perm _ _

theorem pairwise_isLE_visits (order : SortOrder) (outcomes : List (ShardTarget × Outcome)) :
    (visits order outcomes).Pairwise fun i j =>
      (comparePositions order outcomes i j).isLE = true := by
  apply List.pairwise_mergeSort
  · intro i j k
    exact TransCmp.isLE_trans
  · intro i j
    rw [@OrientedCmp.eq_swap _ (comparePositions order outcomes) _ j i]
    cases comparePositions order outcomes i j <;> rfl

theorem pairwise_visits (h : HaveOneKind outcomes) :
    (visits order outcomes).Pairwise (VisitedBefore order outcomes) := by
  have hne : (visits order outcomes).Nodup :=
    (visits_perm order outcomes).nodup_iff.mpr (List.nodup_finRange _)
  refine ((pairwise_isLE_visits order outcomes).and hne).imp ?_
  rintro i j ⟨hij, hne⟩
  rw [← comparePositions_eq_lt_iff h]
  cases hcompare : comparePositions order outcomes i j with
  | lt => rfl
  | eq => exact absurd (eq_of_comparePositions_eq_eq hcompare) hne
  | gt => simp [hcompare] at hij

theorem eq_visits (h : HaveOneKind outcomes) {positions : List (Fin outcomes.length)}
    (perm : positions.Perm (List.finRange outcomes.length))
    (sorted : positions.Pairwise (VisitedBefore order outcomes)) :
    positions = visits order outcomes := by
  refine List.Perm.eq_of_pairwise ?_ sorted (pairwise_visits h)
    (perm.trans (visits_perm order outcomes).symm)
  intro i j _ _ hij hji
  rw [← comparePositions_eq_lt_iff h] at hij hji
  rw [@OrientedCmp.eq_swap _ (comparePositions order outcomes), hij] at hji
  cases hji

theorem order_shards_of_haveOneKind (p : OrderingPolicy) (h : HaveOneKind outcomes)
    (sort : SortSpec) :
    (p.order outcomes (some sort)).shards =
      (visits sort.order outcomes).map (p.delivered outcomes) := by
  have hsort : (visits sort.order outcomes).map (p.candidate outcomes) =
      (p.candidates outcomes).mergeSort fun a b => (Candidate.compare sort.order a b).isLE := by
    rw [candidates_eq_map]
    apply List.map_mergeSort
    intro i _ j _
    rw [compare_candidate h]
  simp only [order, isSortable_iff.mpr h, if_true, OrderedShards.ofShards]
  rw [← hsort, List.map_map]
  rfl

theorem order_shards_of_not_haveOneKind (p : OrderingPolicy) {sort : Option SortSpec}
    (h : ∀ spec, sort = some spec → ¬ HaveOneKind outcomes) :
    p.order outcomes sort =
      .ofShards ((List.finRange outcomes.length).map (p.delivered outcomes))
        (outcomes.countP (·.2.failed)) false := by
  have hrouted : (p.candidates outcomes).map Candidate.routed =
      (List.finRange outcomes.length).map (p.delivered outcomes) := by
    rw [candidates_eq_map, List.map_map]
    rfl
  cases sort with
  | none => simp only [order, hrouted]
  | some spec =>
      have hnot : isSortable outcomes = false := by
        rw [← Bool.not_eq_true, isSortable_iff]
        exact h spec rfl
      simp only [order, hnot, Bool.false_eq_true, if_false, hrouted]

/-- Where a sort is given and the known bounds have one kind, the delivered list is the one
arrangement of the routing positions in which every shard stands before all that it leads. In every
other case it is the routing order. -/
theorem order_visits (p : OrderingPolicy) (outcomes : List (ShardTarget × Outcome))
    (sort : Option SortSpec) :
    (∀ spec, sort = some spec → HaveOneKind outcomes →
      (p.order outcomes sort).summary.sorted = true ∧
      ∃ positions : List (Fin outcomes.length),
        positions.Perm (List.finRange outcomes.length) ∧
        positions.Pairwise (VisitedBefore spec.order outcomes) ∧
        (∀ others : List (Fin outcomes.length), others.Perm (List.finRange outcomes.length) →
          others.Pairwise (VisitedBefore spec.order outcomes) → others = positions) ∧
        (p.order outcomes sort).shards = positions.map (p.delivered outcomes)) ∧
    ((∀ spec, sort = some spec → ¬ HaveOneKind outcomes) →
      (p.order outcomes sort).summary.sorted = false ∧
      (p.order outcomes sort).shards =
        (List.finRange outcomes.length).map (p.delivered outcomes)) := by
  constructor
  · rintro spec rfl h
    refine ⟨?_, visits spec.order outcomes, visits_perm spec.order outcomes, pairwise_visits h,
      ?_, order_shards_of_haveOneKind p h spec⟩
    · simp only [order, isSortable_iff.mpr h, if_true, OrderedShards.ofShards]
    · intro others perm sorted
      exact eq_visits h perm sorted
  · intro h
    rw [order_shards_of_not_haveOneKind p h]
    exact ⟨rfl, rfl⟩

/-- Both zeros, a negative not-a-number, a shard without a bound, and two shards of one ordinal. -/
def zerosAndNaN : List (ShardTarget × Outcome) :=
  let shard (index : String) (ordinal : UInt32) : ShardTarget :=
    { shard := { index := ⟨index⟩, ordinal } }
  let bound (least greatest : UInt64) : Option Bound := some (.double ⟨least⟩ ⟨greatest⟩)
  [(shard "a" 0, .success true none), (shard "a" 4, .success true (bound 0 0)),
    (shard "b" 3, .success false (bound 0x8000000000000000 0)),
    (shard "a" 3, .success true (bound 0x8000000000000000 1)),
    (shard "a" 9, .success true (bound 0xfff8000000000000 0))]

theorem order_visits_zerosAndNaN :
    HaveOneKind zerosAndNaN ∧
      (OrderingPolicy.order {} zerosAndNaN (some { field := "price" })).summary.sorted = true ∧
      ∃ positions : List (Fin 5), positions.Pairwise (VisitedBefore .ascending zerosAndNaN) ∧
        (OrderingPolicy.order {} zerosAndNaN (some { field := "price" })).shards =
          positions.map (delivered {} zerosAndNaN) ∧
        (OrderingPolicy.order {} zerosAndNaN (some { field := "price" })).shards.map
          (fun s => (s.target.shard.index.text, s.target.shard.ordinal)) =
            [("a", 9), ("a", 3), ("b", 3), ("a", 4), ("a", 0)] := by
  have h : HaveOneKind zerosAndNaN := isSortable_iff.mp (by decide +kernel)
  obtain ⟨hsorted, positions, hperm, hpairwise, hunique, hshards⟩ :=
    (order_visits {} zerosAndNaN (some { field := "price" })).1 _ rfl h
  exact ⟨h, hsorted, positions, hpairwise, hshards, by cbv⟩

section rearrangement

variable {p : OrderingPolicy} {outcomes : List (ShardTarget × Outcome)} {sort : Option SortSpec}

theorem order_summary (p : OrderingPolicy) (outcomes : List (ShardTarget × Outcome))
    (sort : Option SortSpec) :
    (p.order outcomes sort).summary.total = (p.order outcomes sort).shards.length ∧
      (p.order outcomes sort).summary.skipped = (p.order outcomes sort).shards.countP (·.skip) := by
  simp only [order]
  split
  · split <;> exact ⟨rfl, rfl⟩
  · exact ⟨rfl, rfl⟩

theorem exists_positions (p : OrderingPolicy) (outcomes : List (ShardTarget × Outcome))
    (sort : Option SortSpec) :
    ∃ positions : List (Fin outcomes.length), positions.Perm (List.finRange outcomes.length) ∧
      (p.order outcomes sort).shards = positions.map (p.delivered outcomes) := by
  by_cases h : ∀ spec, sort = some spec → ¬ HaveOneKind outcomes
  · exact ⟨List.finRange outcomes.length, .refl _,
      by rw [order_shards_of_not_haveOneKind p h]; rfl⟩
  · push Not at h
    obtain ⟨spec, rfl, hkind⟩ := h
    exact ⟨visits spec.order outcomes, visits_perm spec.order outcomes,
      order_shards_of_haveOneKind p hkind spec⟩

theorem keepsFirst_iff (i : Fin outcomes.length) :
    p.keepsFirst outcomes = true ↔ p.keepOne = true ∧ ∀ o ∈ outcomes, o.2.matched = false := by
  have hne : outcomes.isEmpty = false := by
    cases outcomes with
    | nil => exact i.elim0
    | cons => rfl
  simp [keepsFirst, hne]

theorem skip_delivered_iff (i : Fin outcomes.length) :
    (p.delivered outcomes i).skip = true ↔ outcomes[i].2.matched = false ∧
      ¬ (p.keepOne = true ∧ (∀ o ∈ outcomes, o.2.matched = false) ∧ i.val = 0) := by
  rw [← and_assoc, ← keepsFirst_iff i]
  simp only [delivered]
  cases p.keepsFirst outcomes <;> simp

theorem exists_delivered_of_keepOne (keep : p.keepOne = true) (nonempty : outcomes ≠ []) :
    ∃ i : Fin outcomes.length, (p.delivered outcomes i).skip = false := by
  by_cases hall : ∀ o ∈ outcomes, o.2.matched = false
  · refine ⟨⟨0, List.length_pos_iff.mpr nonempty⟩, ?_⟩
    rw [← Bool.not_eq_true, skip_delivered_iff]
    exact fun h => h.2 ⟨keep, hall, rfl⟩
  · push Not at hall
    obtain ⟨o, ho, hmatched⟩ := hall
    obtain ⟨i, hi, rfl⟩ := List.getElem_of_mem ho
    refine ⟨⟨i, hi⟩, ?_⟩
    rw [← Bool.not_eq_true, skip_delivered_iff]
    exact fun h => hmatched h.1

theorem length_toQuery_add_countP (r : OrderedShards) :
    r.toQuery.length + r.shards.countP (·.skip) = r.shards.length := by
  rw [OrderedShards.toQuery, ← List.countP_eq_length_filter, Nat.add_comm,
    List.length_eq_countP_add_countP (·.skip)]
  simp

/-- No shard is lost, comes twice or bears the flag of another: routing positions and delivered places
correspond one to one, and at each place stands the shard of its position, to be skipped just when it
is unmatched and is not the one that is kept. -/
theorem order_rearranges (p : OrderingPolicy) (outcomes : List (ShardTarget × Outcome))
    (sort : Option SortSpec) :
    (∃ place : Fin outcomes.length ≃ Fin (p.order outcomes sort).shards.length,
      ∀ i, (p.order outcomes sort).shards[place i].target = outcomes[i].1 ∧
        ((p.order outcomes sort).shards[place i].skip = true ↔ outcomes[i].2.matched = false ∧
          ¬ (p.keepOne = true ∧ (∀ o ∈ outcomes, o.2.matched = false) ∧ i.val = 0))) ∧
    (p.order outcomes sort).summary.total = outcomes.length ∧
    (p.order outcomes sort).summary.skipped = (p.order outcomes sort).shards.countP (·.skip) ∧
    (p.order outcomes sort).summary.failed = outcomes.countP (·.2.failed) ∧
    (p.order outcomes sort).toQuery.length + (p.order outcomes sort).summary.skipped =
      (p.order outcomes sort).summary.total ∧
    (p.keepOne = true → outcomes ≠ [] → (p.order outcomes sort).toQuery ≠ []) := by
  obtain ⟨positions, hperm, hshards⟩ := exists_positions p outcomes sort
  obtain ⟨htotal, hskipped⟩ := order_summary p outcomes sort
  have hmem (i : Fin outcomes.length) : i ∈ positions := hperm.mem_iff.mpr (List.mem_finRange i)
  have hlength : positions.length = (p.order outcomes sort).shards.length := by
    rw [hshards, List.length_map]
  refine ⟨?_, ?_, hskipped, order_failed p outcomes sort, ?_, ?_⟩
  · have hnodup : positions.Nodup := hperm.nodup_iff.mpr (List.nodup_finRange _)
    let index := hnodup.getEquivOfForallMemList positions hmem
    refine ⟨index.symm.trans (finCongr hlength), fun i => ?_⟩
    have hi : positions[index.symm i] = i := index.apply_symm_apply i
    have hplace : (p.order outcomes sort).shards[(index.symm.trans (finCongr hlength)) i] =
        p.delivered outcomes i := by
      simp only [hshards, List.getElem_map, Fin.getElem_fin, Equiv.trans_apply, finCongr_apply,
        Fin.val_cast]
      exact congrArg (p.delivered outcomes) hi
    rw [hplace, skip_delivered_iff]
    exact ⟨rfl, Iff.rfl⟩
  · rw [htotal, ← hlength, hperm.length_eq, List.length_finRange]
  · rw [htotal, hskipped, length_toQuery_add_countP]
  · intro keep nonempty
    obtain ⟨i, hi⟩ := exists_delivered_of_keepOne keep nonempty
    apply List.ne_nil_of_mem
    rw [OrderedShards.toQuery, List.mem_filter]
    exact ⟨hshards ▸ List.mem_map_of_mem (hmem i), by rw [hi]; rfl⟩

/-- Two shards that cannot match; the second comes first by its bound, and the first is kept. -/
def unmatchedPair : List (ShardTarget × Outcome) :=
  [({ shard := default, copies := [] }, .success false (some (.long 5 9))),
    ({ shard := default, copies := [] }, .success false (some (.long 1 2)))]

theorem order_rearranges_unmatchedPair :
    (OrderingPolicy.order { keepOne := true } unmatchedPair
      (some { field := "ts" })).toQuery ≠ [] ∧
    (OrderingPolicy.order { keepOne := true } unmatchedPair
      (some { field := "ts" })).shards.map (·.skip) = [true, false] := by
  have h := order_rearranges { keepOne := true } unmatchedPair (some { field := "ts" })
  exact ⟨h.2.2.2.2.2 rfl (List.cons_ne_nil _ _), by cbv⟩

end rearrangement

end OrderingPolicy
end Prefilter
