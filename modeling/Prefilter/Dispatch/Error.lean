namespace Prefilter

/-- Why an executor takes no task. -/
inductive DispatchError where
  | rejected (queued limit : Nat)
  | shutdown
  /-- There is nothing that could run tasks. -/
  | noRuntime (text : String)
deriving DecidableEq, Inhabited

namespace DispatchError

def message : DispatchError → String
  | rejected queued limit => s!"dispatch rejected: {queued} tasks queued (limit {limit})"
  | shutdown => "executor is shut down"
  | noRuntime text => s!"no runtime: {text}"

end DispatchError
end Prefilter
