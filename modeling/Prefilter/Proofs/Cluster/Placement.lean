import Mathlib.Algebra.Group.Nat.Defs
import Mathlib.Data.List.Flatten
import Mathlib.Data.List.Nodup
import Prefilter.Cluster.Layout
import Prefilter.Phase.Step
import Prefilter.Proofs.Shard.Identity

namespace Prefilter

/-- A range of values has a least and a greatest one. -/
def ShardData.IsOrdered : ShardData → Prop
  | .empty | .broken => True
  | .range least greatest => least ≤ greatest

instance : DecidablePred ShardData.IsOrdered
  | .empty | .broken => inferInstanceAs (Decidable True)
  | .range least greatest => inferInstanceAs (Decidable (least ≤ greatest))

namespace Cluster

variable {c c' : Cluster} {contents : ShardId → ShardData} {index : IndexName}
  {data : UInt32 → ShardData} {shards : UInt32} {entry : IndexName × List ShardTarget}
  {target : ShardTarget} {targets : List ShardTarget}
  {layout : List (IndexName × List ShardTarget)} {node : NodeId} {n place offset replicas ordinal : Nat}

/-- What the shards hold once an index with some data has been added. -/
def withIndex (contents : ShardId → ShardData) (index : IndexName) (data : UInt32 → ShardData) :
    ShardId → ShardData := fun shard =>
  if shard.index = index then data shard.ordinal else contents shard

/-- The clusters that come about by adding indices, with what their shards hold. Nodes go down and come
back at any time. -/
inductive Built : Cluster → (ShardId → ShardData) → Prop where
  | ofSize (n : Nat) : Built (.ofSize n) fun _ => .empty
  | createIndex {c c' : Cluster} {contents : ShardId → ShardData} (built : Built c contents)
      (index : IndexName) (shards : UInt32) (replicas : Nat) (data : UInt32 → ShardData)
      (ordered : ∀ ordinal < shards, (data ordinal).IsOrdered)
      (created : c.createIndex index shards replicas data = (c', none)) :
      Built c' (withIndex contents index data)
  | kill {c c' : Cluster} {contents : ShardId → ShardData} (built : Built c contents) (node : Nat)
      (killed : c.kill node = (c', none)) : Built c' contents
  | revive {c c' : Cluster} {contents : ShardId → ShardData} (built : Built c contents) (node : Nat)
      (revived : c.revive node = (c', none)) : Built c' contents

theorem length_copiesAt (h : replicas < c.nodes.size) :
    (c.copiesAt place replicas).length = replicas + 1 := by
  rw [copiesAt, List.filterMap_length_eq_length.mpr, List.length_range]
  intro r _
  rw [Array.getElem?_eq_getElem (Nat.mod_lt _ (Nat.zero_lt_of_lt h))]
  rfl

theorem mem_nodes_of_mem_copiesAt (h : node ∈ c.copiesAt place replicas) : node ∈ c.nodes := by
  obtain ⟨r, -, hr⟩ := List.mem_filterMap.mp h
  exact Array.mem_of_getElem? hr

/-- The shards of an index are numbered from zero on, and their copies go round the nodes. -/
def Placed (c : Cluster) (entry : IndexName × List ShardTarget) : Prop :=
  ∃ shards offset replicas, shards < 2 ^ 32 ∧ replicas < c.nodes.size ∧
    entry.2 = (List.range shards).map (c.newTarget entry.1 offset replicas)

theorem Placed.of_mem (h : c.Placed entry) (mem : target ∈ entry.2) :
    ∃ ordinal offset replicas, ordinal < 2 ^ 32 ∧ replicas < c.nodes.size ∧
      target = c.newTarget entry.1 offset replicas ordinal := by
  obtain ⟨shards, offset, replicas, hshards, hreplicas, hentry⟩ := h
  rw [hentry] at mem
  obtain ⟨ordinal, hordinal, rfl⟩ := List.mem_map.mp mem
  exact ⟨ordinal, offset, replicas, Nat.lt_trans (List.mem_range.mp hordinal) hshards, hreplicas, rfl⟩

theorem Placed.index_eq (h : c.Placed entry) (mem : target ∈ entry.2) :
    target.shard.index = entry.1 := by
  obtain ⟨ordinal, offset, replicas, -, -, rfl⟩ := h.of_mem mem
  rfl

theorem Placed.nodup (h : c.Placed entry) : (entry.2.map (·.shard)).Nodup := by
  obtain ⟨shards, offset, replicas, hshards, -, hentry⟩ := h
  rw [hentry, List.map_map]
  refine List.Nodup.map_on ?_ List.nodup_range
  intro i hi j hj heq
  have hordinal : UInt32.ofNat i = UInt32.ofNat j := congrArg ShardId.ordinal heq
  have hi := UInt32.toNat_ofNat_of_lt' (Nat.lt_trans (List.mem_range.mp hi) hshards)
  have hj := UInt32.toNat_ofNat_of_lt' (Nat.lt_trans (List.mem_range.mp hj) hshards)
  exact hi.symm.trans ((congrArg UInt32.toNat hordinal).trans hj)

/-- The indices are in order, each once. -/
def Sorted (layout : List (IndexName × List ShardTarget)) : Prop :=
  layout.Pairwise fun a b => a.1.compare b.1 = .lt

theorem ne_of_compare_eq_lt {a b : IndexName} (h : a.compare b = .lt) : a ≠ b := by
  rintro rfl
  have hself : a.compare a = .eq := Std.ReflCmp.compare_self
  cases hself.symm.trans h

theorem mem_layOut (h : Sorted layout) (mem : entry ∈ layOut index targets layout) :
    entry = (index, targets) ∨ (entry ∈ layout ∧ entry.1 ≠ index) := by
  induction layout with
  | nil => exact .inl (List.mem_singleton.mp mem)
  | cons first rest ih =>
      obtain ⟨hfirst, hrest⟩ := List.pairwise_cons.mp h
      rw [layOut] at mem
      split at mem
      · rename_i hlt
        rcases List.mem_cons.mp mem with rfl | mem
        · exact .inl rfl
        · refine .inr ⟨mem, (ne_of_compare_eq_lt ?_).symm⟩
          rcases List.mem_cons.mp mem with rfl | mem
          · exact hlt
          · exact Std.TransCmp.lt_trans hlt (hfirst entry mem)
      · rename_i heq
        obtain rfl := Std.LawfulEqCmp.eq_of_compare heq
        rcases List.mem_cons.mp mem with rfl | mem
        · exact .inl rfl
        · exact .inr ⟨List.mem_cons_of_mem _ mem, (ne_of_compare_eq_lt (hfirst entry mem)).symm⟩
      · rename_i hgt
        rcases List.mem_cons.mp mem with rfl | mem
        · exact .inr ⟨List.mem_cons_self, ne_of_compare_eq_lt (Std.OrientedCmp.lt_of_gt hgt)⟩
        · exact (ih hrest mem).imp_right fun ⟨hmem, hne⟩ => ⟨List.mem_cons_of_mem _ hmem, hne⟩

theorem Sorted.layOut (h : Sorted layout) : Sorted (layOut index targets layout) := by
  induction layout with
  | nil => exact List.pairwise_singleton _ _
  | cons first rest ih =>
      obtain ⟨hfirst, hrest⟩ := List.pairwise_cons.mp h
      rw [Cluster.layOut]
      split
      · rename_i hlt
        refine List.pairwise_cons.mpr ⟨fun entry mem => ?_, h⟩
        rcases List.mem_cons.mp mem with rfl | mem
        · exact hlt
        · exact Std.TransCmp.lt_trans hlt (hfirst entry mem)
      · rename_i heq
        obtain rfl := Std.LawfulEqCmp.eq_of_compare heq
        exact List.pairwise_cons.mpr ⟨hfirst, hrest⟩
      · rename_i hgt
        refine List.pairwise_cons.mpr ⟨fun entry mem => ?_, ih hrest⟩
        rcases mem_layOut hrest mem with rfl | ⟨mem, -⟩
        · exact Std.OrientedCmp.lt_of_gt hgt
        · exact hfirst entry mem

/-- The holdings that come with the shards of a new index. -/
def newHoldings (targets : List ShardTarget) (data : UInt32 → ShardData) : List Holding :=
  targets.flatMap fun target =>
    target.copies.map fun node => { node, shard := target.shard, data := data target.shard.ordinal }

theorem createIndex_eq_none (h : c.createIndex index shards replicas data = (c', none)) :
    replicas < c.nodes.size ∧ c.holdingsSpoiled = false ∧
      let targets := (List.range shards.toNat).map (c.newTarget index c.shardCount replicas)
      c' = { c with
        layout := layOut index targets c.layout
        holdings := newHoldings targets data ++ c.holdings } := by
  rw [createIndex] at h
  split at h
  · cases h
  · split at h
    · cases h
    · rename_i hreplicas hspoiled
      exact ⟨Nat.lt_of_not_le hreplicas, by simpa using hspoiled, (congrArg Prod.fst h).symm⟩

theorem mem_newHoldings {h : Holding} : h ∈ newHoldings targets data ↔
    ∃ target ∈ targets, h.node ∈ target.copies ∧
      h.shard = target.shard ∧ h.data = data target.shard.ordinal := by
  simp only [newHoldings, List.mem_flatMap, List.mem_map]
  constructor
  · rintro ⟨target, htarget, node, hnode, rfl⟩
    exact ⟨target, htarget, hnode, rfl, rfl⟩
  · rintro ⟨target, htarget, hnode, hshard, hdata⟩
    rw [← hshard] at hdata
    exact ⟨target, htarget, h.node, hnode, by rw [← hshard, ← hdata]⟩

theorem dataAt?_eq_some {d : ShardData} {shard : ShardId} {new old : List Holding}
    (holdings : c.holdings = new ++ old) (held : ∃ h ∈ new, h.node = node ∧ h.shard = shard)
    (same : ∀ h ∈ new, h.shard = shard → h.data = d) : c.dataAt? node shard = some d := by
  obtain ⟨h, hmem, rfl, rfl⟩ := held
  rw [dataAt?, holdings]
  obtain ⟨g, hg⟩ : ∃ g, new.find? (fun g => g.shard.ordinal == h.shard.ordinal &&
      g.shard.index == h.shard.index && g.node == h.node) = some g :=
    Option.isSome_iff_exists.mp (List.find?_isSome.mpr ⟨h, hmem, by simp⟩)
  have hshard : g.shard = h.shard := by
    have hp := List.find?_some hg
    simp only [Bool.and_eq_true, beq_iff_eq] at hp
    cases hgs : g.shard
    cases hhs : h.shard
    simp_all
  simp only [List.find?_append, hg, Option.some_or, Option.map_some,
    same g (List.mem_of_find?_eq_some hg) hshard]

theorem dataAt?_append {shard : ShardId} {new : List Holding}
    (holdings : c'.holdings = new ++ c.holdings) (other : ∀ h ∈ new, h.shard.index ≠ shard.index) :
    c'.dataAt? node shard = c.dataAt? node shard := by
  have hnone : new.find? (fun g => g.shard.ordinal == shard.ordinal && g.shard.index == shard.index &&
      g.node == node) = none := by
    rw [List.find?_eq_none]
    intro h hmem
    simp [other h hmem]
  simp only [dataAt?, holdings, List.find?_append, hnone, Option.none_or]

/-- The layout is in order, and every copy of a shard holds the data of the shard. -/
structure LaidOut (c : Cluster) (contents : ShardId → ShardData) : Prop where
  sorted : Sorted c.layout
  placed : ∀ entry ∈ c.layout, c.Placed entry
  held : ∀ entry ∈ c.layout, ∀ target ∈ entry.2, ∀ node ∈ target.copies,
    c.dataAt? node target.shard = some (contents target.shard)

/-- The layout is in order, its shards hold data that is, and no change has broken off. -/
structure Consistent (c : Cluster) (contents : ShardId → ShardData) : Prop
    extends LaidOut c contents where
  ordered : ∀ entry ∈ c.layout, ∀ target ∈ entry.2, (contents target.shard).IsOrdered
  holdings_sound : c.holdingsSpoiled = false
  down_sound : c.downSpoiled = false

namespace LaidOut

theorem createIndex (h : LaidOut c contents)
    (created : c.createIndex index shards replicas data = (c', none)) :
    LaidOut c' (withIndex contents index data) := by
  obtain ⟨hreplicas, -, rfl⟩ := createIndex_eq_none created
  let targets := (List.range shards.toNat).map (c.newTarget index c.shardCount replicas)
  have hnew : c.Placed (index, targets) := ⟨_, _, _, shards.toNat_lt, hreplicas, rfl⟩
  constructor
  case sorted => exact h.sorted.layOut
  case placed =>
    intro entry hentry
    rcases mem_layOut h.sorted hentry with rfl | ⟨hentry, -⟩
    · exact hnew
    · exact h.placed entry hentry
  case held =>
    intro entry hentry target htarget node hnode
    rcases mem_layOut h.sorted hentry with rfl | ⟨hentry, hne⟩
    · rw [withIndex, if_pos (hnew.index_eq htarget)]
      refine dataAt?_eq_some rfl ⟨⟨node, target.shard, data target.shard.ordinal⟩,
        mem_newHoldings.mpr ⟨target, htarget, hnode, rfl, rfl⟩, rfl, rfl⟩ ?_
      intro g hg hshard
      obtain ⟨other, -, -, hsame, hdata⟩ := mem_newHoldings.mp hg
      rw [hdata, ← hsame, hshard]
    · have hindex := (h.placed entry hentry).index_eq htarget
      rw [withIndex, if_neg (hindex ▸ hne), ← h.held entry hentry target htarget node hnode]
      refine dataAt?_append rfl fun g hg => ?_
      obtain ⟨other, hother, -, hsame, -⟩ := mem_newHoldings.mp hg
      rw [hsame, hnew.index_eq hother, hindex]
      exact hne.symm

theorem congr (h : LaidOut c contents) (nodes : c'.nodes = c.nodes) (layout : c'.layout = c.layout)
    (holdings : c'.holdings = c.holdings) : LaidOut c' contents := by
  have hcopies : c'.copiesAt = c.copiesAt := by
    funext place replicas
    rw [copiesAt, nodes, ← copiesAt]
  have htarget : c'.newTarget = c.newTarget := by
    funext index offset replicas ordinal
    rw [newTarget, hcopies, ← newTarget]
  refine ⟨layout ▸ h.sorted, fun entry hentry => ?_, fun entry hentry target htarget node hnode => ?_⟩
  · obtain ⟨shards, offset, replicas, hshards, hreplicas, heq⟩ := h.placed entry (layout ▸ hentry)
    exact ⟨shards, offset, replicas, hshards, nodes ▸ hreplicas, by rw [heq, htarget]⟩
  · rw [dataAt?, holdings, ← dataAt?]
    exact h.held entry (layout ▸ hentry) target htarget node hnode

theorem ofSize (n : Nat) : LaidOut (.ofSize n) fun _ => .empty where
  sorted := .nil
  placed := nofun
  held := nofun

end LaidOut

namespace Consistent

theorem createIndex (h : Consistent c contents)
    (ordered : ∀ ordinal < shards, (data ordinal).IsOrdered)
    (created : c.createIndex index shards replicas data = (c', none)) :
    Consistent c' (withIndex contents index data) where
  toLaidOut := h.toLaidOut.createIndex created
  ordered entry hentry target htarget := by
    obtain ⟨hreplicas, -, rfl⟩ := createIndex_eq_none created
    rcases mem_layOut h.sorted hentry with rfl | ⟨hentry, hne⟩
    · obtain ⟨ordinal, hordinal, rfl⟩ := List.mem_map.mp htarget
      have hlt := List.mem_range.mp hordinal
      have hnat := UInt32.toNat_ofNat_of_lt' (Nat.lt_trans hlt shards.toNat_lt)
      have hdata : withIndex contents index data
          (c.newTarget index c.shardCount replicas ordinal).shard = data (.ofNat ordinal) := if_pos rfl
      rw [hdata]
      exact ordered _ (UInt32.lt_iff_toNat_lt.mpr (hnat.symm ▸ hlt))
    · rw [withIndex, if_neg ((h.placed entry hentry).index_eq htarget ▸ hne)]
      exact h.ordered entry hentry target htarget
  holdings_sound := by
    obtain ⟨-, -, rfl⟩ := createIndex_eq_none created
    exact h.holdings_sound
  down_sound := by
    obtain ⟨-, -, rfl⟩ := createIndex_eq_none created
    exact h.down_sound

theorem changeDown {change : NodeId → List NodeId → List NodeId} (h : Consistent c contents)
    (changed : c.changeDown n change = (c', none)) : Consistent c' contents := by
  rw [Cluster.changeDown, if_neg (by simp [h.down_sound])] at changed
  split at changed
  · obtain rfl := congrArg Prod.fst changed
    exact ⟨h.toLaidOut.congr rfl rfl rfl, h.ordered, h.holdings_sound, h.down_sound⟩
  · cases changed

theorem ofSize (n : Nat) : Consistent (.ofSize n) fun _ => .empty where
  toLaidOut := .ofSize n
  ordered := nofun
  holdings_sound := rfl
  down_sound := rfl

theorem isOrdered (h : Consistent c contents) (mem : target ∈ c.allTargets) :
    (contents target.shard).IsOrdered := by
  obtain ⟨entry, hentry, htarget⟩ := List.mem_flatMap.mp mem
  exact h.ordered entry hentry target htarget

end Consistent

theorem Built.consistent (h : Built c contents) : Consistent c contents := by
  induction h with
  | ofSize n => exact .ofSize n
  | createIndex _ index shards replicas data ordered created ih => exact ih.createIndex ordered created
  | kill _ node killed ih => exact ih.changeDown killed
  | revive _ node revived ih => exact ih.changeDown revived

theorem targets_sublist (c : Cluster) (index : IndexName) : (c.targets index).Sublist c.allTargets := by
  rw [targets]
  cases hlookup : c.layout.lookup index with
  | none => exact List.nil_sublist _
  | some targets =>
      obtain ⟨before, after, hlayout, -⟩ := List.lookup_eq_some_iff.mp hlookup
      have hmem : (index, targets) ∈ c.layout := by simp [hlayout]
      exact List.sublist_flatten_of_mem (List.mem_map_of_mem hmem)

namespace LaidOut

theorem exists_placed (h : LaidOut c contents) (mem : target ∈ c.allTargets) :
    ∃ index ordinal offset replicas, ordinal < 2 ^ 32 ∧ replicas < c.nodes.size ∧
      target = c.newTarget index offset replicas ordinal := by
  obtain ⟨entry, hentry, htarget⟩ := List.mem_flatMap.mp mem
  obtain ⟨ordinal, offset, replicas, hlaid⟩ := (h.placed entry hentry).of_mem htarget
  exact ⟨entry.1, ordinal, offset, replicas, hlaid⟩

theorem cluster_eq (h : LaidOut c contents) (mem : target ∈ c.allTargets) :
    target.cluster = none := by
  obtain ⟨index, ordinal, offset, replicas, -, -, rfl⟩ := h.exists_placed mem
  rfl

theorem copies_ne_nil (h : LaidOut c contents) (mem : target ∈ c.allTargets) :
    target.copies ≠ [] := by
  obtain ⟨index, ordinal, offset, replicas, -, hreplicas, rfl⟩ := h.exists_placed mem
  have hlength := @length_copiesAt c (offset + ordinal) replicas hreplicas
  exact List.ne_nil_of_length_pos (hlength ▸ Nat.succ_pos _)

theorem mem_nodes (h : LaidOut c contents) (mem : target ∈ c.allTargets)
    (copy : node ∈ target.copies) : node ∈ c.nodes := by
  obtain ⟨index, ordinal, offset, replicas, -, -, rfl⟩ := h.exists_placed mem
  exact mem_nodes_of_mem_copiesAt copy

theorem dataAt?_eq (h : LaidOut c contents) (mem : target ∈ c.allTargets)
    (copy : node ∈ target.copies) :
    c.dataAt? node target.shard = some (contents target.shard) := by
  obtain ⟨entry, hentry, htarget⟩ := List.mem_flatMap.mp mem
  exact h.held entry hentry target htarget node copy

theorem nodup_shards (h : LaidOut c contents) : (c.allTargets.map (·.shard)).Nodup := by
  rw [allTargets, List.map_flatMap]
  refine List.nodup_flatMap.mpr ⟨fun entry hentry => (h.placed entry hentry).nodup, ?_⟩
  refine h.sorted.imp_of_mem fun {a b} ha hb hlt shard hsa hsb => ?_
  obtain ⟨s, hs, rfl⟩ := List.mem_map.mp hsa
  obtain ⟨t, ht, hshard⟩ := List.mem_map.mp hsb
  have hindex := congrArg ShardId.index hshard
  rw [(h.placed a ha).index_eq hs, (h.placed b hb).index_eq ht] at hindex
  exact ne_of_compare_eq_lt hlt hindex.symm

end LaidOut

theorem hasDuplicates_eq_false (h : (targets.map (·.shard)).Nodup) : hasDuplicates targets = false := by
  induction targets with
  | nil => rfl
  | cons target rest ih =>
      rw [List.map_cons, List.nodup_cons] at h
      have hother : rest.any target.sameIdentity = false := by
        rw [List.any_eq_false]
        intro other hmem hsame
        refine h.1 (List.mem_map.mpr ⟨other, hmem, ?_⟩)
        simp only [ShardTarget.sameIdentity, Bool.and_eq_true, beq_iff_eq] at hsame
        cases hs : other.shard
        cases ht : target.shard
        simp_all
      rw [hasDuplicates, hother, ih h.2]
      rfl

end Cluster
end Prefilter
