import Prefilter.Config.Settings
import Prefilter.Dispatch.Pool
import Prefilter.Routing.Policy

namespace Prefilter.Settings

def policy (s : Settings) : OrderingPolicy := { keepOne := s.alwaysQueryOneShard }

/-- The pool of these settings, if one can be made. -/
def pool? (s : Settings) : Option Pool :=
  Pool.ofLimits? s.maxConcurrentTasks.toNat s.maxQueuedTasks.toNat

end Prefilter.Settings
