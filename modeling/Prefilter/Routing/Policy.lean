import Prefilter.Routing.Outcome
import Prefilter.Routing.Ordered

namespace Prefilter

/-- How a phase turns outcomes into a result. -/
structure OrderingPolicy where
  /-- Where every shard could be skipped, the first one is kept for the search. -/
  keepOne : Bool := true
deriving DecidableEq, Inhabited

structure Candidate where
  target : ShardTarget
  outcome : Outcome
  position : Nat
  skip : Bool
deriving DecidableEq, Inhabited

namespace Candidate

/-- Shards without a bound come after those with one, whatever the direction. -/
def compareBound (order : SortOrder) : Option Bound → Option Bound → Ordering
  | some a, some b => (Bound.compare? order a b).getD .eq
  | some _, none => .lt
  | none, some _ => .gt
  | none, none => .eq

/-- The visiting order: bound, then identity, then routing position. -/
def compare (order : SortOrder) (a b : Candidate) : Ordering :=
  (compareBound order a.outcome.bound b.outcome.bound).then
    ((a.target.compareIdentity b.target).then (Ord.compare a.position b.position))

def routed (c : Candidate) : RoutedShard := { target := c.target, skip := c.skip }

end Candidate

def boundKinds (outcomes : List (ShardTarget × Outcome)) : List BoundKind :=
  outcomes.filterMap fun o => o.2.bound.map Bound.kind

/-- Whether the shards can be ordered: some bound is known and all known ones have one kind. -/
def isSortable (outcomes : List (ShardTarget × Outcome)) : Bool :=
  match boundKinds outcomes with
  | [] => false
  | first :: others => others.all (· == first)

inductive OrderingRemark where
  | keptFirst (shards : Nat)
  | mixedKinds (first other : BoundKind)
deriving DecidableEq

namespace OrderingPolicy

/-- Whether the rule that keeps one shard applies: there are shards, and none can match. -/
def keepsFirst (p : OrderingPolicy) (outcomes : List (ShardTarget × Outcome)) : Bool :=
  p.keepOne && !outcomes.isEmpty && outcomes.all (!·.2.matched)

/-- The shards in routing order with their skip flags. -/
def candidates (p : OrderingPolicy) (outcomes : List (ShardTarget × Outcome)) : List Candidate :=
  let kept := p.keepsFirst outcomes
  outcomes.zipIdx.map fun ((target, outcome), position) =>
    { target, outcome, position, skip := !outcome.matched && !(kept && position == 0) }

/-- The result of a phase whose outcomes are given in routing order. -/
def order (p : OrderingPolicy) (outcomes : List (ShardTarget × Outcome)) (sort : Option SortSpec) :
    OrderedShards :=
  let candidates := p.candidates outcomes
  let failed := outcomes.countP (·.2.failed)
  match sort with
  | some sort =>
    if isSortable outcomes then
      let visited := candidates.mergeSort fun a b => (Candidate.compare sort.order a b).isLE
      .ofShards (visited.map Candidate.routed) failed true
    else .ofShards (candidates.map Candidate.routed) failed false
  | none => .ofShards (candidates.map Candidate.routed) failed false

/-- The remark on bounds of different kinds, which is made only when a sort asked for them. -/
def mixedKinds? (outcomes : List (ShardTarget × Outcome)) (sort : Option SortSpec) :
    Option OrderingRemark :=
  match sort, boundKinds outcomes with
  | some _, first :: others => (others.find? (· != first)).map (.mixedKinds first)
  | _, _ => none

def remarks (p : OrderingPolicy) (outcomes : List (ShardTarget × Outcome))
    (sort : Option SortSpec) : List OrderingRemark :=
  (if p.keepsFirst outcomes then [.keptFirst outcomes.length] else []) ++
    (mixedKinds? outcomes sort).toList

end OrderingPolicy
end Prefilter
