import Prefilter.Probe.Error

namespace Prefilter

/-- A channel to a node, identified by the node and its cluster; none is the local cluster. -/
structure Connection where
  node : NodeId
  cluster : Option String := none
deriving DecidableEq, Inhabited

/-- The connections that are known, each at most once. -/
structure Directory where
  connections : List Connection := []
deriving DecidableEq, Inhabited

namespace Directory

def insert (d : Directory) (c : Connection) : Directory :=
  if c ∈ d.connections then d else ⟨d.connections ++ [c]⟩

def ofNodes (nodes : List NodeId) : Directory :=
  nodes.foldl (fun d node => d.insert { node }) {}

def size (d : Directory) : Nat := d.connections.length

def isEmpty (d : Directory) : Bool := d.connections.isEmpty

def resolve (d : Directory) (cluster : Option String) (node : NodeId) :
    Except ProbeError Connection :=
  let c : Connection := { node, cluster }
  if c ∈ d.connections then .ok c else .error (.notConnected node cluster)

end Directory
end Prefilter
