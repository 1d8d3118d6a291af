import Prefilter.Probe.Error
import Prefilter.Probe.Message

namespace Prefilter

abbrev ProbeResult := Except ProbeError ProbeResponse

/-- A listener delivers one result: the first that it is given, or a failure of its own if it is dropped
before. -/
structure Listener where
  resolved : Bool := false
deriving DecidableEq, Inhabited

namespace Listener

/-- Resolves the listener, and says what it delivers. -/
def resolve (l : Listener) (result : ProbeResult) : Listener × Option ProbeResult :=
  if l.resolved then (l, none) else ({ resolved := true }, some result)

def drop (l : Listener) : Listener × Option ProbeResult := l.resolve (.error .listenerDropped)

theorem resolve_of_unresolved {l : Listener} (h : l.resolved = false) (result : ProbeResult) :
    l.resolve result = ({ resolved := true }, some result) := by
  simp [resolve, h]

def diagnostic (l : Listener) : String := s!"ProbeListener \x7b resolved: {l.resolved} \x7d"

end Listener
end Prefilter
