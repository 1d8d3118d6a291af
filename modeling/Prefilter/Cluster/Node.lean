import Prefilter.Cluster.Layout
import Prefilter.Cluster.Query
import Prefilter.Probe.Directory
import Prefilter.Probe.Listener
import Prefilter.Wire.Frame

namespace Prefilter

/-- A probe that a node has answered. -/
structure Serving where
  node : NodeId
  shard : ShardId
deriving DecidableEq, Inhabited

inductive Evaluation where
  | response (response : ProbeResponse)
  | failure (text : String)
  /-- The node breaks down over the probe, and nothing comes back. -/
  | breakdown
deriving DecidableEq

namespace Cluster

/-- How a node evaluates a probe. The bound of the shard is reported only where the search sorts; over
a bound whose ends are the wrong way round the node breaks down. -/
def evaluate (c : Cluster) (node : NodeId) (request : ProbeRequest) : Evaluation :=
  match c.dataAt? node request.shard with
  | none => .failure s!"no copy of {request.shard.display} on {request.node.text}"
  | some data =>
    match RangeQuery.ofSource? request.source, data with
    | .error fault, _ => .failure fault.message
    | .ok _, .empty => .response { canMatch := false }
    | .ok _, .broken => .failure s!"shard {request.shard.display} is broken"
    | .ok q, .range least greatest =>
      let canMatch := q.meets least greatest
      match request.sort.map fun _ => (Bound.long least greatest).checked with
      | none => .response { canMatch }
      | some (.ok bound) => .response { canMatch, bound := some bound }
      | some (.error _) => .breakdown

def reply? (c : Cluster) (node : NodeId) (request : ProbeRequest) : Option ProbeMessage :=
  if c.holdingsSpoiled then none
  else if node ∈ c.nodes then
    match c.evaluate node request with
    | .response response => some (.response response)
    | .failure text => some (.failure text)
    | .breakdown => none
  else some (.failure s!"unknown node {node.text}")

/-- Serves a frame: the frame of the reply, if there is one, and the record that a request was
answered. -/
def serve (c : Cluster) (node : NodeId) (frame : List UInt8) :
    Option (Except ProbeError (List UInt8)) × Option Serving :=
  match Wire.Frame.decode frame with
  | .error error => (some (.error error), none)
  | .ok (.request request) =>
    match c.reply? node request with
    | none => (none, none)
    | some reply => (some (Wire.Frame.encode reply), some { node, shard := request.shard })
  | .ok _ => (some (.error (.unexpectedMessage "expected a probe request")), none)

/-- What a probe over a connection comes to, with the record of the node that answered it. A probe
without a result is lost, as are all while nobody can tell which nodes are down. -/
def probe (c : Cluster) (connection : Connection) (request : ProbeRequest) :
    Option ProbeResult × Option Serving :=
  let node := connection.node
  if c.downSpoiled then (none, none)
  else if node ∈ c.down then (some (.error (.dispatch s!"node {node.text} is down")), none)
  else
    match Wire.Frame.encode (.request request) with
    | .error error => (some (.error error), none)
    | .ok frame =>
      match c.serve node frame with
      | (none, serving) => (none, serving)
      | (some (.error error), serving) => (some (.error error), serving)
      | (some (.ok reply), serving) =>
        match Wire.Frame.decode reply with
        | .error error => (some (.error error), serving)
        | .ok message => (some (message.toResponse node), serving)

end Cluster
end Prefilter
