import Prefilter.Cluster.Node
import Prefilter.Proofs.Cluster.Placement
import Prefilter.Proofs.Wire.Framing

namespace Prefilter

namespace Directory

theorem mem_insert {d : Directory} {connection new : Connection} :
    connection ∈ (d.insert new).connections ↔ connection ∈ d.connections ∨ connection = new := by
  rw [insert]
  split
  · rename_i hmem
    exact ⟨.inl, fun h => h.elim id fun heq => heq ▸ hmem⟩
  · simp

theorem mem_foldl_insert {nodes : List NodeId} {d : Directory} {connection : Connection} :
    connection ∈ (nodes.foldl (fun d node => d.insert { node }) d).connections ↔
      connection ∈ d.connections ∨ ∃ node ∈ nodes, connection = { node } := by
  induction nodes generalizing d with
  | nil => simp
  | cons node nodes ih => rw [List.foldl_cons, ih, mem_insert, or_assoc, List.exists_mem_cons_iff]

theorem resolve_ofNodes {nodes : List NodeId} {node : NodeId} (h : node ∈ nodes) :
    (ofNodes nodes).resolve none node = .ok { node } :=
  if_pos (mem_foldl_insert.mpr (.inr ⟨node, h, rfl⟩))

end Directory

theorem RangeQuery.ofSource?_toSource (q : RangeQuery) : ofSource? (some q.toSource) = .ok q := by
  have hcodec : codec.Lossless := (Wire.Codec.Lossless.long.pair .long).map fun _ => rfl
  have hlength : (codec.encode q).length < 2 ^ 64 := by
    have hleast := Wire.Codec.length_long_le q.least
    have hgreatest := Wire.Codec.length_long_le q.greatest
    simp only [codec, Wire.Codec.map, Wire.Codec.pair, List.length_append]
    omega
  have hread := hcodec.decode_encode q [] hlength
  rw [List.append_nil] at hread
  simp only [ofSource?, toSource, hread]

/-- The response over a shard that holds some data, if there is one. -/
def ShardData.response? (data : ShardData) (q : RangeQuery) (sort : Option SortSpec) :
    Option ProbeResponse :=
  match data with
  | .empty => some { canMatch := false }
  | .broken => none
  | .range least greatest =>
    some { canMatch := q.meets least greatest, bound := sort.map fun _ => .long least greatest }

variable {data : ShardData} {q : RangeQuery} {sort : Option SortSpec} {response : ProbeResponse}

theorem ShardData.response?_cases (h : data.response? q sort = some response) :
    (data = .empty ∧ response = { canMatch := false }) ∨
      ∃ least greatest, data = .range least greatest ∧ response =
        { canMatch := q.meets least greatest, bound := sort.map fun _ => .long least greatest } := by
  cases data with
  | empty => exact .inl ⟨rfl, (Option.some.inj h).symm⟩
  | broken => cases h
  | range least greatest => exact .inr ⟨least, greatest, rfl, (Option.some.inj h).symm⟩

theorem ShardData.response?_eq_none_iff : data.response? q sort = none ↔ data = .broken := by
  cases data <;> simp [response?]

theorem ShardData.encode_response (h : data.response? q sort = some response) :
    ∃ frame, Wire.Frame.encode (.response response) = .ok frame := by
  refine ⟨_, Wire.Frame.encode_of_length_le ?_⟩
  have hbound : ((Wire.Codec.option Wire.Codec.bound).encode response.bound).length ≤ 26 := by
    rcases response?_cases h with ⟨-, rfl⟩ | ⟨least, greatest, -, rfl⟩
    · exact (by decide : 1 ≤ 26)
    · cases sort with
      | none => exact (by decide : 1 ≤ 26)
      | some sort =>
          have hleast := Wire.Codec.length_long_le least
          have hgreatest := Wire.Codec.length_long_le greatest
          have htag := Wire.Codec.length_word32_le 0
          simp only [Option.map_some, Wire.Codec.option, Wire.Codec.bound, Wire.Codec.tagged,
            Wire.Codec.pair, List.length_cons, List.length_append]
          omega
  have htag := Wire.Codec.length_word32_le 1
  simp only [Wire.Codec.probeMessage, Wire.Codec.tagged, Wire.Codec.probeResponse, Wire.Codec.map,
    Wire.Codec.pair, Wire.Codec.flag, List.length_append, List.length_singleton,
    Wire.Frame.maxPayload]
  omega

namespace Cluster

variable {c : Cluster} {node : NodeId} {request : ProbeRequest}

theorem evaluate_eq (held : c.dataAt? node request.shard = some data) (ordered : data.IsOrdered)
    (source : request.source = some q.toSource) :
    c.evaluate node request = (data.response? q request.sort).elim
      (.failure s!"shard {request.shard.display} is broken") .response := by
  rw [evaluate, held, source, RangeQuery.ofSource?_toSource]
  cases data with
  | empty => rfl
  | broken => rfl
  | range least greatest =>
      have hbound : Bound.IsOrdered (.long least greatest) := Int64.le_iff_toInt_le.mp ordered
      cases hsort : request.sort with
      | none => simp [ShardData.response?]
      | some sort => simp [ShardData.response?, Bound.checked, hbound]

theorem reply?_eq (sound : c.holdingsSpoiled = false) (listed : node ∈ c.nodes)
    (held : c.dataAt? node request.shard = some data) (ordered : data.IsOrdered)
    (source : request.source = some q.toSource) :
    c.reply? node request = some ((data.response? q request.sort).elim
      (.failure s!"shard {request.shard.display} is broken") .response) := by
  rw [reply?, if_neg (by simp [sound]), if_pos listed, evaluate_eq held ordered source]
  cases data.response? q request.sort <;> rfl

theorem probe_eq (sound : c.holdingsSpoiled = false) (known : c.downSpoiled = false)
    (listed : node ∈ c.nodes) (held : c.dataAt? node request.shard = some data)
    (ordered : data.IsOrdered) (source : request.source = some q.toSource)
    (fits : (Wire.Codec.probeMessage.encode (.request request)).length ≤ Wire.Frame.maxPayload) :
    ∃ result, c.probe { node } request =
        (some result, if node ∈ c.down then none else some ⟨node, request.shard⟩) ∧
      result.toOption = if node ∈ c.down then none else data.response? q request.sort := by
  rw [probe, if_neg (by simp [known])]
  by_cases hdown : node ∈ c.down
  · simp only [if_pos hdown]
    exact ⟨_, rfl, rfl⟩
  · simp only [if_neg hdown]
    have hframe := Wire.Frame.encode_of_length_le fits
    have hreply := reply?_eq sound listed held ordered source
    cases hresponse : data.response? q request.sort with
    | some response =>
        obtain ⟨frame, hencoded⟩ := ShardData.encode_response hresponse
        rw [hresponse] at hreply
        refine ⟨.ok response, ?_, rfl⟩
        simp only [hframe, serve, Wire.Frame.decode_encode hframe, hreply, Option.elim_some, hencoded,
          Wire.Frame.decode_encode hencoded, ProbeMessage.toResponse]
    | none =>
        rw [hresponse] at hreply
        -- A word of failure that fits into no frame is a failure all the same.
        cases hencoded : Wire.Frame.encode (.failure s!"shard {request.shard.display} is broken") with
        | error error =>
            refine ⟨.error error, ?_, rfl⟩
            simp only [hframe, serve, Wire.Frame.decode_encode hframe, hreply, Option.elim_none,
              hencoded]
        | ok frame =>
            refine ⟨.error (.remote node s!"shard {request.shard.display} is broken"), ?_, rfl⟩
            simp only [hframe, serve, Wire.Frame.decode_encode hframe, hreply, Option.elim_none,
              hencoded, Wire.Frame.decode_encode hencoded, ProbeMessage.toResponse]

end Cluster
end Prefilter
