import Prefilter.Text.Utf8

namespace Prefilter

/-- The name of a node, as cluster membership hands it out. -/
structure NodeId where
  text : String
deriving DecidableEq, Inhabited

structure IndexName where
  text : String
deriving DecidableEq, Inhabited

namespace NodeId

def compare (a b : NodeId) : Ordering := Text.compareUtf8 a.text b.text

def labelled (n : NodeId) : String := s!"NodeId({n.text})"

end NodeId

namespace IndexName

def compare (a b : IndexName) : Ordering := Text.compareUtf8 a.text b.text

def labelled (n : IndexName) : String := s!"IndexName({n.text})"

end IndexName
end Prefilter
