import Prefilter.Cluster.Node
import Prefilter.Config.Derived
import Prefilter.Phase.Stack

/-!
Searches over a simulated cluster. A search starts one phase, drives every dispatch, and moves the
clock until the result is there or the time for it is over. Probes that a search has left behind go
on when a later one lets the runtime run.
-/

namespace Prefilter

inductive SearchFault where
  | notStarted (fault : StartFault)
  /-- The result did not come in time. -/
  | timedOut
deriving DecidableEq

namespace SearchFault

def message : SearchFault → String
  | notStarted fault => fault.message
  | timedOut => "can-match phase timed out: Elapsed(())"

end SearchFault

/-- A coordinator over a cluster; the state of the nodes is the record of the answered probes. -/
abbrev Client := Stack (Array Serving)

namespace Client

/-- An idle client, if there is a pool for the settings. -/
def ofSettings? (settings : Settings) : Option Client :=
  settings.pool?.map fun pool =>
    { runtime := {
        pool
        carrier := { limit := settings.probeTimeoutMs.map (·.toNat) }
        backend := #[] }
      coordinator := { policy := settings.policy } }

def served (client : Client) : Array Serving := client.runtime.backend

end Client

namespace Cluster

/-- How long a search waits for its result, in milliseconds. -/
def searchLimit : Nat := 30000

/-- The nodes behind the transport. -/
def backend (c : Cluster) (latency : Nat) : Backend (Array Serving) where
  directory := .ofNodes c.nodes.toList
  delay _ _ := latency
  answer served connection request :=
    let (result, serving) := c.probe connection request
    (serving.toArray.foldl Array.push served, result)

def searchRequest (q : RangeQuery) (sort : Option SortSpec) : SearchRequest :=
  { sort, source := some q.toSource }

/-- Searches over some targets, with probes that take so long to reach their nodes. If the result is
there at once, the runtime does not run. Otherwise it works in the order in which things became ready:
first the probes of earlier searches that are due by now, then the dispatches, then what comes due
later. -/
def search (c : Cluster) (latency : Nat) (client : Client) (targets : List ShardTarget)
    (q : RangeQuery) (sort : Option SortSpec) : Except SearchFault OrderedShards × Client :=
  let request := searchRequest q sort
  let b := c.backend latency
  let phase := client.coordinator.phases.size
  match startFault? targets request with
  | some fault => (.error (.notStarted fault), client.start b targets request)
  | none =>
    let client := client.start b targets request
    let client :=
      if (client.result? phase).isSome then client
      else ((client.advance b 0).drive b).await b phase searchLimit
    match client.result? phase with
    | some result => (.ok result, client)
    | none => (.error .timedOut, client)

def queriedOrdinals (r : OrderedShards) : List UInt32 := r.toQuery.map (·.target.shard.ordinal)

end Cluster
end Prefilter
