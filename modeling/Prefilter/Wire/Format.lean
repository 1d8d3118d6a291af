import Prefilter.Wire.Sequence
import Prefilter.Probe.Message
import Prefilter.Config.Settings

namespace Prefilter.Wire.Codec

def nodeId : Codec NodeId := text.map .mk (·.text)

def indexName : Codec IndexName := text.map .mk (·.text)

def shardId : Codec ShardId :=
  (indexName.pair word32).map (fun (index, ordinal) => ⟨index, ordinal⟩)
    fun s => (s.index, s.ordinal)

def aliasFilter : Codec AliasFilter :=
  ((list text).pair (option bytes)).map (fun (aliases, filter) => ⟨aliases, filter⟩)
    fun f => (f.aliases, f.filter)

def shardTarget : Codec ShardTarget :=
  (shardId.pair <| (option text).pair <| aliasFilter.pair <| list nodeId).map
    (fun (shard, cluster, aliasFilter, copies) => ⟨shard, cluster, aliasFilter, copies⟩)
    fun t => (t.shard, t.cluster, t.aliasFilter, t.copies)

def sortOrder : Codec SortOrder :=
  tagged (fun | .ascending => 0 | .descending => 1) (fun _ => [])
    fun
    | 0 => some fun rest => .ok (.ascending, rest)
    | 1 => some fun rest => .ok (.descending, rest)
    | _ => none

def sortSpec : Codec SortSpec :=
  (text.pair sortOrder).map (fun (field, order) => ⟨field, order⟩) fun s => (s.field, s.order)

def bound : Codec Bound :=
  tagged
    (fun
      | .long .. => 0
      | .double .. => 1
      | .text .. => 2)
    (fun
      | .long a b => (long.pair long).encode (a, b)
      | .double a b => (double.pair double).encode (a, b)
      | .text a b => (text.pair text).encode (a, b))
    fun
    | 0 => some fun rest => ((long.pair long).decode rest).map fun (a, b) => .long a b
    | 1 => some fun rest => ((double.pair double).decode rest).map fun (a, b) => .double a b
    | 2 => some fun rest => ((text.pair text).decode rest).map fun (a, b) => .text a b
    | _ => none

def outcome : Codec Outcome :=
  (flag.pair <| (option bound).pair flag).map
    (fun (matched, bound, failed) => ⟨matched, bound, failed⟩)
    fun o => (o.matched, o.bound, o.failed)

def probeRequest : Codec ProbeRequest :=
  (shardId.pair <| nodeId.pair <| (option text).pair <| aliasFilter.pair <|
      (option bytes).pair <| (option sortSpec).pair word64).map
    (fun (shard, node, cluster, aliasFilter, source, sort, shardCount) =>
      ⟨shard, node, cluster, aliasFilter, source, sort, shardCount⟩)
    fun r => (r.shard, r.node, r.cluster, r.aliasFilter, r.source, r.sort, r.shardCount)

def probeResponse : Codec ProbeResponse :=
  (flag.pair (option bound)).map (fun (canMatch, bound) => ⟨canMatch, bound⟩)
    fun r => (r.canMatch, r.bound)

def probeMessage : Codec ProbeMessage :=
  tagged
    (fun
      | .request _ => 0
      | .response _ => 1
      | .failure _ => 2)
    (fun
      | .request r => probeRequest.encode r
      | .response r => probeResponse.encode r
      | .failure t => text.encode t)
    fun
    | 0 => some fun rest => (probeRequest.decode rest).map .request
    | 1 => some fun rest => (probeResponse.decode rest).map .response
    | 2 => some fun rest => (text.decode rest).map .failure
    | _ => none

def settings : Codec Settings :=
  ((option word64).pair <| word64.pair <| word64.pair <| flag.pair (option word64)).map
    (fun (size, concurrent, queued, keepOne, timeout) =>
      ⟨size, concurrent, queued, keepOne, timeout⟩)
    fun s => (s.preFilterShardSize, s.maxConcurrentTasks, s.maxQueuedTasks,
      s.alwaysQueryOneShard, s.probeTimeoutMs)

end Prefilter.Wire.Codec
