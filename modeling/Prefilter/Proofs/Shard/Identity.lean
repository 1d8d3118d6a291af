import Prefilter.Shard.Target
import Prefilter.Proofs.Sort.Ends

namespace Prefilter

open Std

instance : TransCmp IndexName.compare := transCmp_comap Text.compareUtf8 IndexName.text

instance : LawfulEqCmp IndexName.compare where
  compare_self := ReflCmp.compare_self
  eq_of_compare := by
    intro a b h
    cases a
    cases b
    exact congrArg IndexName.mk (LawfulEqCmp.eq_of_compare h)

namespace ShardId

theorem compare_eq_compareLex :
    compare = compareLex (fun a b => Ord.compare a.ordinal b.ordinal)
      fun a b => a.index.compare b.index := rfl

instance : TransCmp compare := by
  have := transCmp_comap Ord.compare ShardId.ordinal
  have := transCmp_comap IndexName.compare ShardId.index
  rw [compare_eq_compareLex]
  infer_instance

theorem compare_eq_eq_iff {a b : ShardId} : compare a b = .eq ↔ a = b := by
  rw [compare, Ordering.then_eq_eq, LawfulEqCmp.compare_eq_iff_eq, LawfulEqCmp.compare_eq_iff_eq]
  cases a
  cases b
  simp [and_comm]

theorem compare_eq_lt_iff {a b : ShardId} : compare a b = .lt ↔ a.ordinal < b.ordinal ∨
    (a.ordinal = b.ordinal ∧ Text.utf8 a.index.text < Text.utf8 b.index.text) := by
  rw [compare, Ordering.then_eq_lt, Std.compare_eq_lt, LawfulEqCmp.compare_eq_iff_eq,
    IndexName.compare, Text.compareUtf8_eq_lt_iff]

end ShardId

/-- The local cluster leads; remote ones follow by name. -/
inductive ClusterLeads : Option String → Option String → Prop where
  | home {b : String} : ClusterLeads none (some b)
  | name {a b : String} (h : Text.utf8 a < Text.utf8 b) : ClusterLeads (some a) (some b)

namespace ShardTarget

instance : TransCmp compareCluster where
  eq_swap := by
    intro a b
    cases a <;> cases b <;> simp only [compareCluster]
    · rfl
    · rfl
    · rfl
    · exact OrientedCmp.eq_swap
  isLE_trans := by
    intro a b c
    cases a <;> cases b <;> cases c <;> simp only [compareCluster]
    case some.some.some => exact TransCmp.isLE_trans
    all_goals simp

theorem compareCluster_eq_eq_iff {a b : Option String} : compareCluster a b = .eq ↔ a = b := by
  cases a <;> cases b <;> simp [compareCluster]

theorem compareCluster_eq_lt_iff {a b : Option String} :
    compareCluster a b = .lt ↔ ClusterLeads a b := by
  constructor
  · intro h
    cases a <;> cases b <;> simp only [compareCluster, reduceCtorEq] at h
    · exact .home
    · exact .name (Text.compareUtf8_eq_lt_iff.mp h)
  · intro h
    cases h with
    | home => rfl
    | name h => exact Text.compareUtf8_eq_lt_iff.mpr h

theorem compareIdentity_eq_compareLex :
    compareIdentity = compareLex (fun a b => a.shard.compare b.shard)
      fun a b => compareCluster a.cluster b.cluster := rfl

instance : TransCmp compareIdentity := by
  have := transCmp_comap ShardId.compare ShardTarget.shard
  have := transCmp_comap compareCluster ShardTarget.cluster
  rw [compareIdentity_eq_compareLex]
  infer_instance

theorem compareIdentity_eq_eq_iff {a b : ShardTarget} :
    compareIdentity a b = .eq ↔ a.shard = b.shard ∧ a.cluster = b.cluster := by
  rw [compareIdentity, Ordering.then_eq_eq, ShardId.compare_eq_eq_iff, compareCluster_eq_eq_iff]

theorem compareIdentity_eq_lt_iff {a b : ShardTarget} :
    compareIdentity a b = .lt ↔ a.shard.compare b.shard = .lt ∨
      (a.shard = b.shard ∧ ClusterLeads a.cluster b.cluster) := by
  rw [compareIdentity, Ordering.then_eq_lt, ShardId.compare_eq_eq_iff, compareCluster_eq_lt_iff]

end ShardTarget
end Prefilter
