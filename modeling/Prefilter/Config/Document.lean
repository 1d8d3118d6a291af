import Prefilter.Config.Settings
import Prefilter.Config.Mismatch
import Prefilter.Toml.Document

/-!
Settings as documents: the table `can_match` of a TOML text. Every key is optional, keys that mean
nothing here are passed over, and of several bad values the first one in the document is reported.
Writing gives one line a key.
-/

namespace Prefilter

inductive SettingsError where
  | malformed
  | mistyped (mismatch : Mismatch)
  | invalid (text : String)

namespace SettingsError

def message : SettingsError → String
  | malformed => "config parse error"
  | mistyped mismatch => mismatch.message
  | invalid text => s!"invalid config: {text}"

end SettingsError

namespace Settings

/-- The name under which the settings stand in a document. -/
def tableName : String := "can_match"

/-- The keys of the settings, in the order in which a list of values is read. -/
inductive Key where
  | preFilterShardSize
  | maxConcurrentTasks
  | maxQueuedTasks
  | alwaysQueryOneShard
  | probeTimeoutMs
deriving DecidableEq

namespace Key

def all : List Key :=
  [preFilterShardSize, maxConcurrentTasks, maxQueuedTasks, alwaysQueryOneShard, probeTimeoutMs]

def name : Key → String
  | preFilterShardSize => "pre_filter_shard_size"
  | maxConcurrentTasks => "max_concurrent_tasks"
  | maxQueuedTasks => "max_queued_tasks"
  | alwaysQueryOneShard => "always_query_one_shard"
  | probeTimeoutMs => "probe_timeout_ms"

def ofName? (name : String) : Option Key := all.find? (·.name == name)

end Key

def readWord (wanted : WantedValue) (item : Toml.Item) : Except Mismatch UInt64 :=
  match item with
  | .scalar (.integer n) => if 0 ≤ n then .ok (.ofNat n.toNat) else .error ⟨.integer n, wanted⟩
  | other => .error ⟨.ofItem other, wanted⟩

def readFlag (item : Toml.Item) : Except Mismatch Bool :=
  match item with
  | .scalar (.boolean b) => .ok b
  | other => .error ⟨.ofItem other, .flag⟩

def read (s : Settings) (key : Key) (item : Toml.Item) : Except Mismatch Settings :=
  match key with
  | .preFilterShardSize =>
    (readWord .size item).map fun n => { s with preFilterShardSize := some n }
  | .maxConcurrentTasks => (readWord .size item).map fun n => { s with maxConcurrentTasks := n }
  | .maxQueuedTasks => (readWord .size item).map fun n => { s with maxQueuedTasks := n }
  | .alwaysQueryOneShard => (readFlag item).map fun b => { s with alwaysQueryOneShard := b }
  | .probeTimeoutMs =>
    (readWord .milliseconds item).map fun n => { s with probeTimeoutMs := some n }

def ofTable (t : Toml.Table) : Except Mismatch Settings :=
  t.foldlM (fun s (name, item) =>
    match Key.ofName? name with
    | some key => s.read key item
    | none => .ok s) {}

/-- The settings of a list of values, which stand for the keys in order. -/
def ofList (items : List Toml.Item) : Except Mismatch Settings :=
  (Key.all.zip items).foldlM (fun s (key, item) => s.read key item) {}

def ofItem (item : Toml.Item) : Except Mismatch Settings :=
  match item with
  | .table _ entries => ofTable entries
  | .array items => ofList items
  | .tables elements => ofList (elements.map fun t => .table .header t)
  | .scalar .datetime => .ok {}
  | other => .error ⟨.ofItem other, .settings⟩

def ofDocument (root : Toml.Table) : Except Mismatch Settings :=
  match root.find? tableName with
  | some item => ofItem item
  | none => .ok {}

def ofToml (text : String) : Except SettingsError Settings :=
  match Toml.document? text with
  | none => .error .malformed
  | some root =>
    match ofDocument root with
    | .error mismatch => .error (.mistyped mismatch)
    | .ok s =>
      match s.fault? with
      | some fault => .error (.invalid fault.message)
      | none => .ok s

/-- The text of a number, if a document can hold it. -/
def wordText? (n : UInt64) : Option String :=
  if n.toNat ≤ Int64.maxValue.toInt.toNat then some (toString n.toNat) else none

/-- The text of the value of a key. Absent values have none; a number that no document can hold
makes the outer option `none`. -/
def valueText? (s : Settings) (key : Key) : Option (Option String) :=
  let optional : Option UInt64 → Option (Option String)
    | none => some none
    | some n => (wordText? n).map some
  match key with
  | .preFilterShardSize => optional s.preFilterShardSize
  | .maxConcurrentTasks => (wordText? s.maxConcurrentTasks).map some
  | .maxQueuedTasks => (wordText? s.maxQueuedTasks).map some
  | .alwaysQueryOneShard => some (some (toString s.alwaysQueryOneShard))
  | .probeTimeoutMs => optional s.probeTimeoutMs

/-- One line a present key, in order. -/
def toToml? (s : Settings) : Option String := do
  let lines ← Key.all.mapM fun key => do
    match ← s.valueText? key with
    | some value => return s!"{key.name} = {value}\n"
    | none => return ""
  return String.join lines

end Settings
end Prefilter
