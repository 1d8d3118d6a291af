import Prefilter.Sort.Bound

namespace Prefilter

/-- The settings of the phase. -/
structure Settings where
  /-- The phase runs only for searches over more shards than this. -/
  preFilterShardSize : Option UInt64 := none
  /-- How many dispatches run at once. -/
  maxConcurrentTasks : UInt64 := 32
  /-- How many dispatches may wait. -/
  maxQueuedTasks : UInt64 := 10000
  /-- Where every shard could be skipped, the first one is kept. -/
  alwaysQueryOneShard : Bool := true
  /-- The time limit of one probe, in milliseconds. -/
  probeTimeoutMs : Option UInt64 := none
deriving DecidableEq, Inhabited

inductive SettingsFault where
  | noConcurrency
  | noQueue
  | zeroTimeout
deriving DecidableEq

namespace SettingsFault

def message : SettingsFault → String
  | noConcurrency => "max_concurrent_tasks must be at least 1"
  | noQueue => "max_queued_tasks must be at least 1"
  | zeroTimeout => "probe_timeout_ms must be positive when set"

end SettingsFault

namespace Settings

def fault? (s : Settings) : Option SettingsFault :=
  if s.maxConcurrentTasks = 0 then some .noConcurrency
  else if s.maxQueuedTasks = 0 then some .noQueue
  else if s.probeTimeoutMs = some 0 then some .zeroTimeout
  else none

/-- Without an explicit threshold, a search that sorts gains from two shards on, for the order alone;
any other search from 129 on. -/
def threshold (s : Settings) (sort : Option SortSpec) : UInt64 :=
  match s.preFilterShardSize, sort with
  | some size, _ => size
  | none, some _ => 1
  | none, none => 128

/-- Whether a search over so many shards is worth the phase. -/
def shouldPreFilter (s : Settings) (shardCount : UInt64) (sort : Option SortSpec) : Bool :=
  s.threshold sort < shardCount

end Settings
end Prefilter
