import Prefilter.Shard.Target

/-!
A simulated cluster: nodes, the indices laid out over them, and what each node holds. The shards of an
index are placed round-robin, starting where the shards of all indices so far leave off. What the
nodes hold and which of them are down are spoiled by a change that breaks off in the middle, and are
of no use from then on.
-/

namespace Prefilter

inductive ShardData where
  | empty
  | broken
  /-- Documents whose values span a range. -/
  | range (least greatest : Int64)
deriving DecidableEq, Inhabited

/-- A copy of a shard on a node. -/
structure Holding where
  node : NodeId
  shard : ShardId
  data : ShardData
deriving DecidableEq, Inhabited

structure Cluster where
  nodes : Array NodeId := #[]
  layout : List (IndexName × List ShardTarget) := []
  /-- What the nodes hold, latest first; a later copy of a shard on a node replaces earlier ones. -/
  holdings : List Holding := []
  down : List NodeId := []
  /-- Whether a change to `holdings` has broken off. -/
  holdingsSpoiled : Bool := false
  /-- Whether a change to `down` has broken off. -/
  downSpoiled : Bool := false
deriving Inhabited

/-- Why a change to a cluster is not made, or breaks off. -/
inductive ClusterFault where
  | tooManyCopies
  | noData
  | noSuchNode (count node : Nat)
  | holdingsSpoiled
  | downSpoiled
deriving DecidableEq

namespace ClusterFault

def message : ClusterFault → String
  | tooManyCopies => "more copies than nodes"
  | noData => "attempt to calculate the remainder with a divisor of zero"
  | noSuchNode count node => s!"index out of bounds: the len is {count} but the index is {node}"
  | holdingsSpoiled => "node map lock poisoned: PoisonError \x7b .. \x7d"
  | downSpoiled => "down set lock poisoned: PoisonError \x7b .. \x7d"

end ClusterFault

namespace Cluster

def ofSize (n : Nat) : Cluster := { nodes := (Array.range n).map fun i => ⟨s!"node-{i}"⟩ }

def isEmpty (c : Cluster) : Bool := c.nodes.isEmpty

def shardCount (c : Cluster) : Nat := c.layout.foldl (fun n entry => n + entry.2.length) 0

/-- The nodes for a shard: one after the other, from the place of the shard on. -/
def copiesAt (c : Cluster) (place replicas : Nat) : List NodeId :=
  (List.range (replicas + 1)).filterMap fun r => c.nodes[(place + r) % c.nodes.size]?

/-- Puts the targets of an index into the layout, in place of those it had before. -/
def layOut (index : IndexName) (targets : List ShardTarget) :
    List (IndexName × List ShardTarget) → List (IndexName × List ShardTarget)
  | [] => [(index, targets)]
  | entry :: rest =>
    match index.compare entry.1 with
    | .lt => (index, targets) :: entry :: rest
    | .eq => (index, targets) :: rest
    | .gt => entry :: layOut index targets rest

def newTarget (c : Cluster) (index : IndexName) (offset replicas ordinal : Nat) : ShardTarget where
  shard := { index, ordinal := .ofNat ordinal }
  copies := c.copiesAt (offset + ordinal) replicas

/-- Creates an index of so many shards with so many replicas each. All copies of a shard hold what
`data` gives for its ordinal. -/
def createIndex (c : Cluster) (index : IndexName) (shards : UInt32) (replicas : Nat)
    (data : UInt32 → ShardData) : Cluster × Option ClusterFault :=
  if c.nodes.size ≤ replicas then (c, some .tooManyCopies)
  else if c.holdingsSpoiled then (c, some .holdingsSpoiled)
  else
    let targets := (List.range shards.toNat).map (c.newTarget index c.shardCount replicas)
    let added := targets.flatMap fun target =>
      target.copies.map fun node => { node, shard := target.shard, data := data target.shard.ordinal }
    ({ c with layout := layOut index targets c.layout, holdings := added ++ c.holdings }, none)

/-- Creates an index whose shards take turns with a list of data. Where that is empty, the change breaks
off as the first shard asks for its data. -/
def addIndex (c : Cluster) (index : IndexName) (shards replicas : Nat) (data : Array ShardData) :
    Cluster × Option ClusterFault :=
  match c.createIndex index (.ofNat shards) replicas fun ordinal =>
    (data[ordinal.toNat % data.size]?).getD .empty with
  | (created, none) =>
    if 0 < shards ∧ data.isEmpty then ({ c with holdingsSpoiled := true }, some .noData)
    else (created, none)
  | refused => refused

def targets (c : Cluster) (index : IndexName) : List ShardTarget :=
  (c.layout.lookup index).getD []

def allTargets (c : Cluster) : List ShardTarget := c.layout.flatMap (·.2)

def dataAt? (c : Cluster) (node : NodeId) (shard : ShardId) : Option ShardData :=
  let holds (h : Holding) : Bool :=
    h.shard.ordinal == shard.ordinal && h.shard.index == shard.index && h.node == node
  (c.holdings.find? holds).map (·.data)

/-- Changes the set of the nodes that are down, for one node. The change breaks off where there is no
such node. -/
def changeDown (c : Cluster) (node : Nat) (change : NodeId → List NodeId → List NodeId) :
    Cluster × Option ClusterFault :=
  if c.downSpoiled then (c, some .downSpoiled)
  else
    match c.nodes[node]? with
    | some id => ({ c with down := change id c.down }, none)
    | none => ({ c with downSpoiled := true }, some (.noSuchNode c.nodes.size node))

def kill (c : Cluster) (node : Nat) : Cluster × Option ClusterFault :=
  c.changeDown node fun id down => if id ∈ down then down else id :: down

def revive (c : Cluster) (node : Nat) : Cluster × Option ClusterFault :=
  c.changeDown node fun id down => down.filter (· != id)

end Cluster
end Prefilter
