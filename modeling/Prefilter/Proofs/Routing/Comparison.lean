import Prefilter.Proofs.Routing.Arrangement

namespace Prefilter

open Std

/-- A comparison that a list may be sorted by: a total order of the members, in which only a member
itself compares equal to it. -/
structure TotalOn {α : Type} (cmp : α → α → Ordering) (members : List α) : Prop where
  self {a : α} : a ∈ members → cmp a a = .eq
  swap {a b : α} : a ∈ members → b ∈ members → cmp b a = (cmp a b).swap
  lt_trans {a b c : α} : a ∈ members → b ∈ members → c ∈ members →
    cmp a b = .lt → cmp b c = .lt → cmp a c = .lt
  eq_of_eq {a b : α} : a ∈ members → b ∈ members → cmp a b = .eq → a = b

namespace TotalOn

variable {α β : Type} {cmp : α → α → Ordering} {members sorted others : List α}

theorem antisymm (h : TotalOn cmp members) {a b : α} (ha : a ∈ members) (hb : b ∈ members)
    (hab : (cmp a b).isLE = true) (hba : (cmp b a).isLE = true) : a = b := by
  rw [h.swap ha hb] at hba
  cases hcmp : cmp a b with
  | lt => simp [hcmp] at hba
  | eq => exact h.eq_of_eq ha hb hcmp
  | gt => simp [hcmp] at hab

theorem sorted_unique (h : TotalOn cmp members) (perm : sorted.Perm members)
    (perm' : others.Perm members) (le : sorted.Pairwise fun a b => (cmp a b).isLE = true)
    (le' : others.Pairwise fun a b => (cmp a b).isLE = true) : sorted = others := by
  refine List.Perm.eq_of_pairwise ?_ le le' (perm.trans perm'.symm)
  intro a b ha hb hab hba
  exact h.antisymm (perm.mem_iff.mp ha) (perm'.mem_iff.mp hb) hab hba

/-- Members that stand for keys are ordered as their keys are. -/
theorem of_keys (compareKeys : β → β → Ordering) [TransCmp compareKeys] [LawfulEqCmp compareKeys]
    {member : β → α} (keyed : ∀ a ∈ members, ∃ key, member key = a)
    (agree : ∀ key key', cmp (member key) (member key') = compareKeys key key') :
    TotalOn cmp members where
  self := by
    intro a ha
    obtain ⟨i, rfl⟩ := keyed a ha
    rw [agree]
    exact ReflCmp.compare_self
  swap := by
    intro a b ha hb
    obtain ⟨i, rfl⟩ := keyed a ha
    obtain ⟨j, rfl⟩ := keyed b hb
    rw [agree, agree]
    exact OrientedCmp.eq_swap
  lt_trans := by
    intro a b c ha hb hc
    obtain ⟨i, rfl⟩ := keyed a ha
    obtain ⟨j, rfl⟩ := keyed b hb
    obtain ⟨k, rfl⟩ := keyed c hc
    rw [agree, agree, agree]
    exact TransCmp.lt_trans
  eq_of_eq := by
    intro a b ha hb
    obtain ⟨i, rfl⟩ := keyed a ha
    obtain ⟨j, rfl⟩ := keyed b hb
    rw [agree, LawfulEqCmp.compare_eq_iff_eq]
    intro h
    rw [h]

end TotalOn

namespace OrderingPolicy

variable {p : OrderingPolicy} {outcomes : List (ShardTarget × Outcome)} {order : SortOrder}

instance (order : SortOrder) (outcomes : List (ShardTarget × Outcome)) :
    LawfulEqCmp (comparePositions order outcomes) where
  compare_self := ReflCmp.compare_self
  eq_of_compare := eq_of_comparePositions_eq_eq

theorem exists_candidate_of_mem {a : Candidate} (ha : a ∈ p.candidates outcomes) :
    ∃ i, p.candidate outcomes i = a := by
  simpa [candidates_eq_map] using ha

theorem totalOn_candidates (h : HaveOneKind outcomes) :
    TotalOn (Candidate.compare order) (p.candidates outcomes) :=
  .of_keys (comparePositions order outcomes) (fun _ ha => exists_candidate_of_mem ha)
    fun _ _ => compare_candidate h

theorem map_position_candidates (p : OrderingPolicy) (outcomes : List (ShardTarget × Outcome)) :
    (p.candidates outcomes).map (·.position) = List.range outcomes.length := by
  rw [candidates_eq_map, List.map_map]
  exact List.map_coe_finRange_eq_range

theorem getElem?_position_of_mem {a : Candidate} (ha : a ∈ p.candidates outcomes) :
    outcomes[a.position]? = some (a.target, a.outcome) := by
  obtain ⟨i, rfl⟩ := exists_candidate_of_mem ha
  exact List.getElem?_eq_getElem i.isLt

theorem eq_of_position_eq {a b : Candidate} (ha : a ∈ p.candidates outcomes)
    (hb : b ∈ p.candidates outcomes) (h : a.position = b.position) : a = b := by
  obtain ⟨i, rfl⟩ := exists_candidate_of_mem ha
  obtain ⟨j, rfl⟩ := exists_candidate_of_mem hb
  rw [Fin.ext (show i.val = j.val from h)]

theorem isSome_compare?_of_mem (h : HaveOneKind outcomes) {a b : Candidate} {x y : Bound}
    (ha : a ∈ p.candidates outcomes) (hb : b ∈ p.candidates outcomes)
    (hx : a.outcome.bound = some x) (hy : b.outcome.bound = some y) :
    (Bound.compare? order x y).isSome = true := by
  obtain ⟨i, rfl⟩ := exists_candidate_of_mem ha
  obtain ⟨j, rfl⟩ := exists_candidate_of_mem hb
  rw [Bound.compare?_eq_compareEnds (h.sameKind i j x y hx hy), Option.isSome_some]

theorem order_shards_of_sorted (h : HaveOneKind outcomes) (spec : SortSpec)
    {sorted : List Candidate} (perm : sorted.Perm (p.candidates outcomes))
    (le : sorted.Pairwise fun a b => (Candidate.compare spec.order a b).isLE = true) :
    (p.order outcomes (some spec)).shards = sorted.map Candidate.routed := by
  have hvisits : sorted = (visits spec.order outcomes).map (p.candidate outcomes) := by
    refine (totalOn_candidates h).sorted_unique perm ?_ le ?_
    · rw [candidates_eq_map]
      exact (visits_perm spec.order outcomes).map _
    · rw [List.pairwise_map]
      refine (pairwise_isLE_visits spec.order outcomes).imp ?_
      intro i j hij
      rw [compare_candidate h]
      exact hij
  rw [order_shards_of_haveOneKind p h, hvisits, List.map_map]
  rfl

/-- The comparison of a sort is a total order of the routing positions whenever it is used: each position
compares equal to itself alone, swapped arguments give the reverse, what leads a leader leads, and no
two bounds come together that cannot be compared. Hence the delivered list is that of every sort by
it, be it stable or not. -/
theorem compare_totalOn (p : OrderingPolicy) (outcomes : List (ShardTarget × Outcome))
    (spec : SortSpec) (sortable : isSortable outcomes = true) :
    (p.candidates outcomes).map (·.position) = List.range outcomes.length ∧
    (∀ a ∈ p.candidates outcomes, outcomes[a.position]? = some (a.target, a.outcome)) ∧
    TotalOn (Candidate.compare spec.order) (p.candidates outcomes) ∧
    (∀ a ∈ p.candidates outcomes, ∀ b ∈ p.candidates outcomes,
      Candidate.compare spec.order a b = .eq ↔ a.position = b.position) ∧
    (∀ a ∈ p.candidates outcomes, ∀ b ∈ p.candidates outcomes, ∀ x y,
      a.outcome.bound = some x → b.outcome.bound = some y →
        (Bound.compare? spec.order x y).isSome = true) ∧
    ∀ sorted : List Candidate, sorted.Perm (p.candidates outcomes) →
      (sorted.Pairwise fun a b => (Candidate.compare spec.order a b).isLE = true) →
        (p.order outcomes (some spec)).shards = sorted.map Candidate.routed := by
  have h : HaveOneKind outcomes := isSortable_iff.mp sortable
  have htotal : TotalOn (Candidate.compare spec.order) (p.candidates outcomes) := totalOn_candidates h
  refine ⟨map_position_candidates p outcomes, fun a => getElem?_position_of_mem, htotal, ?_, ?_, ?_⟩
  · intro a ha b hb
    constructor
    · intro heq
      rw [htotal.eq_of_eq ha hb heq]
    · intro hposition
      rw [eq_of_position_eq ha hb hposition]
      exact htotal.self hb
  · intro a ha b hb x y hx hy
    exact isSome_compare?_of_mem h ha hb hx hy
  · intro sorted perm le
    exact order_shards_of_sorted h spec perm le

/-- A not-a-number, the two zeros, a missing bound, and one identity at three positions. -/
def sameIdentities : List (ShardTarget × Outcome) :=
  let shard (ordinal : UInt32) : ShardTarget := { shard := { index := ⟨"logs"⟩, ordinal } }
  let bound (greatest : UInt64) : Option Bound := some (.double ⟨0⟩ ⟨greatest⟩)
  [(shard 1, .success true none), (shard 1, .success true (bound 0)),
    (shard 1, .success true (bound 0)), (shard 0, .success true (bound 0x8000000000000000)),
    (shard 2, .success true (bound 0x7ff8000000000000))]

theorem compare_totalOn_sameIdentities :
    isSortable sameIdentities = true ∧
      TotalOn (Candidate.compare .descending) (candidates {} sameIdentities) ∧
      (OrderingPolicy.order {} sameIdentities (some { field := "ts", order := .descending })).shards.map
        (·.target.shard.ordinal) = [2, 1, 1, 0, 1] := by
  have h : isSortable sameIdentities = true := by decide +kernel
  obtain ⟨-, -, htotal, -⟩ :=
    compare_totalOn {} sameIdentities { field := "ts", order := .descending } h
  exact ⟨h, htotal, by cbv⟩

end OrderingPolicy
end Prefilter
