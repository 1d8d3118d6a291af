import Prefilter.Shard.Name
import Prefilter.Time.Span

namespace Prefilter

/-- Why an attempt to probe a copy fails. -/
inductive ProbeError where
  | notConnected (node : NodeId) (cluster : Option String)
  | remote (node : NodeId) (text : String)
  | timeout (limit : Span)
  | dispatch (text : String)
  | serialization (text : String)
  | frameTooLarge (size max : Nat)
  | truncated (expected actual : Nat)
  | unexpectedMessage (text : String)
  /-- The listener was dropped before anyone resolved it. -/
  | listenerDropped
deriving DecidableEq, Inhabited

namespace ProbeError

def message : ProbeError → String
  | notConnected node none => s!"node {node.text} is not connected"
  | notConnected node (some cluster) => s!"node {node.text} is not connected on cluster {cluster}"
  | remote node text => s!"remote error from {node.text}: {text}"
  | timeout limit => s!"probe timed out after {limit.display}"
  | dispatch text => s!"dispatch failed: {text}"
  | serialization text => s!"serialization error: {text}"
  | frameTooLarge size max => s!"frame too large: {size} bytes (max {max})"
  | truncated expected actual => s!"truncated frame: expected {expected} bytes, got {actual}"
  | unexpectedMessage text => s!"unexpected message: {text}"
  | listenerDropped => "probe listener dropped without a response"

end ProbeError
end Prefilter
