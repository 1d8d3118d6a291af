import Mathlib.Data.Nat.ModEq
import Prefilter.Proofs.Cluster.Placement

namespace Prefilter

/-- A call that adds an index. -/
structure IndexCall where
  index : IndexName
  shards : UInt32
  replicas : Nat
  data : UInt32 → ShardData

/-- The latest of some calls that is for an index. -/
def latest? (calls : List IndexCall) (index : IndexName) : Option IndexCall :=
  (calls.filter (·.index = index)).getLast?

theorem latest?_append_singleton (calls : List IndexCall) (k : IndexCall) (index : IndexName) :
    latest? (calls ++ [k]) index = if k.index = index then some k else latest? calls index := by
  rw [latest?, List.filter_append]
  split
  · rename_i hindex
    simp [hindex]
  · rename_i hindex
    simp [hindex, latest?]

theorem index_of_latest? {calls : List IndexCall} {index : IndexName} {k : IndexCall}
    (h : latest? calls index = some k) : k.index = index := by
  simpa using List.of_mem_filter (List.mem_of_getLast? h)

namespace Cluster

variable {c c' : Cluster} {calls made : List IndexCall} {k : IndexCall} {index other : IndexName}
  {target : ShardTarget} {targets : List ShardTarget} {node : NodeId}
  {layout : List (IndexName × List ShardTarget)} {n place replicas : Nat}

def call (c : Cluster) (k : IndexCall) : Cluster × Option ClusterFault :=
  c.createIndex k.index k.shards k.replicas k.data

def callAll (c : Cluster) (calls : List IndexCall) : Cluster :=
  calls.foldl (fun c k => (c.call k).1) c

/-- The calls that go through. -/
def passing (c : Cluster) : List IndexCall → List IndexCall
  | [] => []
  | k :: calls => (if (c.call k).2 = none then [k] else []) ++ (c.call k).1.passing calls

/-- What the shards hold after some calls. -/
def contentsOf (calls : List IndexCall) (shard : ShardId) : ShardData :=
  (latest? calls shard.index).elim .empty fun k => k.data shard.ordinal

theorem contentsOf_append_singleton (calls : List IndexCall) (k : IndexCall) :
    contentsOf (calls ++ [k]) = withIndex (contentsOf calls) k.index k.data := by
  funext shard
  rw [contentsOf, latest?_append_singleton, withIndex]
  by_cases hindex : k.index = shard.index
  · simp [hindex]
  · simp [hindex, Ne.symm hindex, contentsOf]

/-! ### Copies -/

theorem getElem?_nodes_ofSize {i : Nat} (h : i < n) :
    (ofSize n).nodes[i]? = some ⟨s!"node-{i}"⟩ := by
  simp [ofSize, h]

theorem eq_of_getElem?_nodes {i j : Nat} (hi : (ofSize n).nodes[i]? = some node)
    (hj : (ofSize n).nodes[j]? = some node) : i = j := by
  have hlt {l : Nat} (hl : (ofSize n).nodes[l]? = some node) : l < n := by
    simpa [ofSize] using (Array.getElem?_eq_some_iff.mp hl).1
  have hname : s!"node-{i}" = s!"node-{j}" :=
    congrArg NodeId.text (Option.some.inj ((getElem?_nodes_ofSize (hlt hi)).symm.trans
      (hi.trans (hj.symm.trans (getElem?_nodes_ofSize (hlt hj))))))
  have hnumber : toString i = toString j := by simpa [String.append_right_inj] using hname
  have hdigits : Nat.toDigits 10 i = Nat.toDigits 10 j := String.ofList_injective hnumber
  rw [← Nat.ofDigitChars_toDigits (n := i) (by decide : 1 < 10) (by decide), hdigits,
    Nat.ofDigitChars_toDigits (by decide) (by decide)]

theorem nodup_copiesAt (nodes : c.nodes = (ofSize n).nodes) (h : replicas < c.nodes.size) :
    (c.copiesAt place replicas).Nodup := by
  rw [copiesAt, List.Nodup, List.pairwise_filterMap]
  refine List.pairwise_lt_range.imp_of_mem fun {r s} hr hs hlt a ha b hb => ?_
  rintro rfl
  rw [nodes] at ha hb
  have hplace : (place + r) % c.nodes.size = (place + s) % c.nodes.size :=
    nodes ▸ eq_of_getElem?_nodes ha hb
  have hsame : r ≡ s [MOD c.nodes.size] := Nat.ModEq.add_left_cancel' place hplace
  have hrange {l : Nat} (hl : l ∈ List.range (replicas + 1)) : l < c.nodes.size :=
    Nat.lt_of_le_of_lt (Nat.le_of_lt_succ (List.mem_range.mp hl)) h
  exact Nat.ne_of_lt hlt (hsame.eq_of_lt_of_lt (hrange hr) (hrange hs))

/-! ### One call -/

/-- The targets are the shards of a call, numbered from zero on. -/
def Places (c : Cluster) (k : IndexCall) (targets : List ShardTarget) : Prop :=
  k.replicas < c.nodes.size ∧
    ∃ offset, targets = (List.range k.shards.toNat).map (c.newTarget k.index offset k.replicas)

theorem Places.of_nodes (h : c.Places k targets) (nodes : c'.nodes = c.nodes) : c'.Places k targets := by
  obtain ⟨hreplicas, offset, rfl⟩ := h
  have htarget : c'.newTarget k.index offset k.replicas = c.newTarget k.index offset k.replicas := by
    funext ordinal
    rw [newTarget, copiesAt, nodes, ← copiesAt, ← newTarget]
  exact ⟨nodes ▸ hreplicas, offset, by rw [htarget]⟩

theorem lookup_cons_eq_ite (entry : IndexName × List ShardTarget)
    (rest : List (IndexName × List ShardTarget)) (other : IndexName) :
    (entry :: rest).lookup other = if other = entry.1 then some entry.2 else rest.lookup other := by
  rw [List.lookup_cons]
  split
  · rename_i heq
    rw [if_pos (eq_of_beq heq)]
  · rename_i hne
    rw [if_neg (by simpa using hne)]

theorem lookup_layOut (index other : IndexName) (targets : List ShardTarget)
    (layout : List (IndexName × List ShardTarget)) : (layOut index targets layout).lookup other =
      if other = index then some targets else layout.lookup other := by
  induction layout with
  | nil => exact lookup_cons_eq_ite (index, targets) [] other
  | cons entry rest ih =>
      rw [layOut]
      split
      · exact lookup_cons_eq_ite (index, targets) (entry :: rest) other
      · rename_i heq
        obtain rfl := Std.LawfulEqCmp.eq_of_compare heq
        rw [lookup_cons_eq_ite, lookup_cons_eq_ite]
        split <;> rfl
      · rename_i hgt
        have hne : index ≠ entry.1 :=
          (ne_of_compare_eq_lt (Std.OrientedCmp.lt_of_gt hgt)).symm
        rw [lookup_cons_eq_ite, lookup_cons_eq_ite, ih]
        by_cases hother : other = entry.1
        · simp [hother, hne.symm]
        · simp [hother]

theorem call_of_fault {fault : ClusterFault} (h : c.call k = (c', some fault)) : c' = c := by
  rw [call, createIndex] at h
  split at h
  · exact (congrArg Prod.fst h).symm
  · split at h
    · exact (congrArg Prod.fst h).symm
    · cases h

theorem call_of_size_le (h : c.nodes.size ≤ k.replicas) : c.call k = (c, some .tooManyCopies) := by
  rw [call, createIndex, if_pos h]

/-- The layout shows the latest calls that went through. -/
structure Shows (n : Nat) (made : List IndexCall) (c : Cluster) : Prop where
  nodes : c.nodes = (ofSize n).nodes
  laid : c.LaidOut (contentsOf made)
  entries : ∀ entry ∈ c.layout, ∃ k, latest? made entry.1 = some k ∧ c.Places k entry.2
  listed : ∀ {index k}, latest? made index = some k → ∃ targets, c.layout.lookup index = some targets

namespace Shows

theorem ofSize (n : Nat) : Shows n [] (.ofSize n) where
  nodes := rfl
  laid := .ofSize n
  entries := nofun
  listed h := by simp [latest?] at h

theorem pass (h : Shows n made c) (passes : c.call k = (c', none)) : Shows n (made ++ [k]) c' := by
  have hlaid := h.laid.createIndex passes
  rw [← contentsOf_append_singleton] at hlaid
  obtain ⟨hreplicas, -, rfl⟩ := createIndex_eq_none passes
  refine ⟨h.nodes, hlaid, fun entry hentry => ?_, fun {index l} hlatest => ?_⟩
  · rw [latest?_append_singleton]
    rcases mem_layOut h.laid.sorted hentry with rfl | ⟨hentry, hne⟩
    · exact ⟨k, if_pos rfl, hreplicas, c.shardCount, rfl⟩
    · obtain ⟨l, hlatest, hplaces⟩ := h.entries entry hentry
      exact ⟨l, (if_neg (Ne.symm hne)).trans hlatest, hplaces.of_nodes rfl⟩
  · rw [latest?_append_singleton] at hlatest
    rw [lookup_layOut]
    by_cases hindex : index = k.index
    · exact ⟨_, if_pos hindex⟩
    · rw [if_neg (Ne.symm hindex)] at hlatest
      rw [if_neg hindex]
      exact h.listed hlatest

theorem callAll (h : Shows n made c) (calls : List IndexCall) :
    Shows n (made ++ c.passing calls) (c.callAll calls) := by
  induction calls generalizing c made with
  | nil => simpa [passing] using! h
  | cons k calls ih =>
      cases hcall : c.call k with
      | mk c' fault? =>
          have hrest : (c.callAll (k :: calls)) = c'.callAll calls := by
            rw [Cluster.callAll, List.foldl_cons, hcall, ← Cluster.callAll]
          cases fault? with
          | none =>
              rw [passing, hcall, if_pos rfl, ← List.append_assoc, hrest]
              exact ih (h.pass hcall)
          | some fault =>
              obtain rfl := call_of_fault hcall
              rw [passing, hcall, if_neg (by simp), List.nil_append, hrest]
              exact ih h

end Shows

theorem passing_eq_filter (sound : c.holdingsSpoiled = false) :
    c.passing calls = calls.filter (·.replicas < c.nodes.size) := by
  induction calls generalizing c with
  | nil => rfl
  | cons k calls ih =>
      by_cases hreplicas : k.replicas < c.nodes.size
      · obtain ⟨c', hcall⟩ : ∃ c', c.call k = (c', none) := by
          rw [call, createIndex, if_neg (Nat.not_le.mpr hreplicas), if_neg (by simp [sound])]
          exact ⟨_, rfl⟩
        obtain ⟨-, -, hc'⟩ := createIndex_eq_none hcall
        have hspoiled : c'.holdingsSpoiled = false := hc' ▸ sound
        have hnodes : c'.nodes = c.nodes := hc' ▸ rfl
        rw [passing, hcall, if_pos rfl, List.filter_cons_of_pos (by simpa using hreplicas),
          ih hspoiled, hnodes]
        rfl
      · rw [passing, call_of_size_le (Nat.le_of_not_lt hreplicas), if_neg (by simp),
          List.filter_cons_of_neg (by simpa using hreplicas), ih sound]
        rfl

theorem mem_of_lookup {other : IndexName} (h : layout.lookup other = some targets) :
    (other, targets) ∈ layout := by
  obtain ⟨before, after, hlayout, -⟩ := List.lookup_eq_some_iff.mp h
  simp [hlayout]

theorem not_sameIdentity {a b : ShardTarget} (h : a.shard ≠ b.shard) : a.sameIdentity b = false := by
  rw [← Bool.not_eq_true, ShardTarget.sameIdentity, Bool.and_eq_true, Bool.and_eq_true]
  rintro ⟨⟨hordinal, hindex⟩, -⟩
  refine h ?_
  cases ha : a.shard
  cases hb : b.shard
  simp_all

namespace Shows

theorem places (h : Shows n made c) (latest : latest? made index = some k) :
    c.Places k (c.targets index) := by
  obtain ⟨targets, hlookup⟩ := h.listed latest
  obtain ⟨l, hlatest, hplaces⟩ := h.entries _ (mem_of_lookup hlookup)
  obtain rfl := Option.some.inj (hlatest.symm.trans latest)
  rwa [Cluster.targets, hlookup, Option.getD_some]

theorem exists_latest (h : Shows n made c) (mem : target ∈ c.allTargets) :
    ∃ k offset, latest? made target.shard.index = some k ∧ target.shard.ordinal < k.shards ∧
      k.replicas < c.nodes.size ∧
      target.copies = c.copiesAt (offset + target.shard.ordinal.toNat) k.replicas := by
  obtain ⟨entry, hentry, htarget⟩ := List.mem_flatMap.mp mem
  obtain ⟨k, hlatest, hreplicas, offset, htargets⟩ := h.entries entry hentry
  rw [htargets] at htarget
  obtain ⟨ordinal, hordinal, rfl⟩ := List.mem_map.mp htarget
  have hlt := List.mem_range.mp hordinal
  have hnat : (UInt32.ofNat ordinal).toNat = ordinal :=
    UInt32.toNat_ofNat_of_lt' (Nat.lt_trans hlt k.shards.toNat_lt)
  refine ⟨k, offset, ?_, UInt32.lt_iff_toNat_lt.mpr (hnat.symm ▸ hlt), hreplicas, ?_⟩
  · rwa [newTarget, index_of_latest? hlatest]
  · rw [newTarget, hnat]

end Shows

/-- After any calls on a cluster of some nodes, the targets of an index are the shards of its latest call
that went through. A shard has a copy more than it has replicas, on as many nodes of the cluster, and
each of these holds the data which that call gave the shard. No two targets are the same shard, so no
phase over all of them is refused for that. A call for more copies than there are nodes changes nothing;
all others go through. -/
theorem shards_placed (n : Nat) (calls : List IndexCall) :
    (∀ target ∈ ((ofSize n).callAll calls).allTargets,
      ∃ k, latest? ((ofSize n).passing calls) target.shard.index = some k ∧
        target.shard.ordinal < k.shards ∧ target.copies.length = 1 + k.replicas ∧
        target.copies.Nodup ∧ ∀ node ∈ target.copies, node ∈ (ofSize n).nodes ∧
          ((ofSize n).callAll calls).dataAt? node target.shard =
            some (k.data target.shard.ordinal)) ∧
    (∀ index k, latest? ((ofSize n).passing calls) index = some k →
      (((ofSize n).callAll calls).targets index).map (·.shard) =
        (List.range k.shards.toNat).map fun ordinal => ⟨index, .ofNat ordinal⟩) ∧
    ((ofSize n).callAll calls).allTargets.Pairwise (fun a b => a.sameIdentity b = false) ∧
    (∀ request, startFault? ((ofSize n).callAll calls).allTargets request ≠ some .duplicateTargets) ∧
    (∀ k : IndexCall, n ≤ k.replicas → ((ofSize n).callAll calls).call k =
      ((ofSize n).callAll calls, some .tooManyCopies)) ∧
    (ofSize n).passing calls = calls.filter (·.replicas < n) := by
  have hsize : (ofSize n).nodes.size = n := by simp [ofSize]
  have hshows : Shows n ((ofSize n).passing calls) ((ofSize n).callAll calls) :=
    (Shows.ofSize n).callAll calls
  have hnodup := hshows.laid.nodup_shards
  refine ⟨fun target mem => ?_, fun index k latest => ?_, ?_, fun request => ?_, fun k hk => ?_, ?_⟩
  · obtain ⟨k, offset, hlatest, hordinal, hreplicas, hcopies⟩ := hshows.exists_latest mem
    refine ⟨k, hlatest, hordinal, ?_, ?_, fun node hnode => ⟨?_, ?_⟩⟩
    · rw [hcopies, length_copiesAt hreplicas, Nat.add_comm]
    · exact hcopies ▸ nodup_copiesAt hshows.nodes hreplicas
    · exact hshows.nodes ▸ hshows.laid.mem_nodes mem hnode
    · rw [hshows.laid.dataAt?_eq mem hnode, contentsOf, hlatest, Option.elim_some]
  · obtain ⟨-, offset, htargets⟩ := hshows.places latest
    rw [htargets, List.map_map, index_of_latest? latest]
    rfl
  · exact (List.pairwise_map.mp hnodup).imp not_sameIdentity
  · rw [startFault?, hasDuplicates_eq_false hnodup]
    split <;> simp_all
  · exact call_of_size_le (by rwa [hshows.nodes, hsize])
  · rw [passing_eq_filter rfl, hsize]

/-- An index is created anew, with more shards and other data, after a call that asks for too much. -/
def created : List IndexCall :=
  [⟨⟨"logs"⟩, 1, 1, fun _ => .range 0 9⟩, ⟨⟨"metrics"⟩, 1, 0, fun _ => .broken⟩,
    ⟨⟨"logs"⟩, 5, 3, fun _ => .broken⟩,
    ⟨⟨"logs"⟩, 2, 1, fun ordinal => if ordinal = 0 then .empty else .range 10 19⟩]

theorem shards_placed_created :
    let c := (ofSize 3).callAll created
    (c.targets ⟨"logs"⟩).map (·.copies) =
        [[⟨"node-2"⟩, ⟨"node-0"⟩], [⟨"node-0"⟩, ⟨"node-1"⟩]] ∧
      (∀ target ∈ c.targets ⟨"logs"⟩, ∀ node ∈ target.copies, c.dataAt? node target.shard =
        some (if target.shard.ordinal = 0 then .empty else .range 10 19)) ∧
      c.dataAt? ⟨"node-1"⟩ ⟨⟨"logs"⟩, 0⟩ = some (.range 0 9) := by
  intro c
  obtain ⟨hplaced, hshards, -, -, -, hpassing⟩ := shards_placed 3 created
  have hlatest : latest? ((ofSize 3).passing created) ⟨"logs"⟩ = some created[3] := by
    rw [hpassing]
    rfl
  refine ⟨by decide +kernel, fun target mem node copy => ?_, by decide +kernel⟩
  have hindex : target.shard.index = ⟨"logs"⟩ := by
    have hshard := List.mem_map_of_mem (f := (·.shard)) mem
    rw [hshards _ _ hlatest] at hshard
    obtain ⟨ordinal, -, heq⟩ := List.mem_map.mp hshard
    rw [← heq]
  obtain ⟨k, hk, -, -, -, hheld⟩ := hplaced target ((c.targets_sublist _).subset mem)
  rw [hindex, hlatest] at hk
  obtain rfl := Option.some.inj hk
  exact (hheld node copy).2

end Cluster
end Prefilter
