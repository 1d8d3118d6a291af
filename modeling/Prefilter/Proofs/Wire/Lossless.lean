import Prefilter.Proofs.Wire.Number
import Prefilter.Wire.Format

namespace Prefilter

theorem Text.ofUtf8?_utf8 (s : String) : ofUtf8? (utf8 s) = some s := by
  have hvalid : (⟨(utf8 s).toArray⟩ : ByteArray).IsValidUTF8 := s.isValidUTF8
  rw [ofUtf8?, String.fromUTF8?, dif_pos hvalid]
  rfl

namespace Wire

variable {α β : Type} {a : α} {b : β} {c : Codec α} {d : Codec β} {n : Nat}

theorem Decoded.map_ok (f : α → β) (rest : List UInt8) :
    Decoded.map f (.ok (a, rest)) = .ok (f a, rest) := rfl

theorem Decoded.andThen_ok (next : α → List UInt8 → Decoded β) (rest : List UInt8) :
    Decoded.andThen (.ok (a, rest)) next = next a rest := rfl

namespace Codec

/-- The codec reads back what it has written, with anything after it. Lengths are words of 64 bits, so
this is about values whose encodings are not longer than such a word can say. -/
structure Lossless (c : Codec α) : Prop where
  encode_ne_nil : ∀ a, c.encode a ≠ []
  decode_encode : ∀ a rest, (c.encode a).length < 2 ^ 64 → c.decode (c.encode a ++ rest) = .ok (a, rest)

theorem decode_count (h : n < 2 ^ 64) (rest : List UInt8) :
    count.decode (count.encode n ++ rest) = .ok (n, rest) :=
  Varint.decode_encode (by decide) h rest

theorem decode_bytes {b : List UInt8} (h : b.length < 2 ^ 64) (rest : List UInt8) :
    bytes.decode (bytes.encode b ++ rest) = .ok (b, rest) := by
  simp only [bytes, List.append_assoc, decode_count h, Decoded.andThen_ok]
  exact takeExactly_append rfl rest

theorem decodeMany_flatMap (h : c.Lossless) {values : List α} (read : List α) (rest : List UInt8)
    (length : (values.flatMap c.encode).length < 2 ^ 64) :
    decodeMany c values.length read (values.flatMap c.encode ++ rest) =
      .ok (read.reverse ++ values, rest) := by
  induction values generalizing read with
  | nil => simp [decodeMany]
  | cons value values ih =>
      rw [List.flatMap_cons, List.length_append] at length
      rw [List.length_cons, decodeMany, List.flatMap_cons, List.append_assoc,
        h.decode_encode value _ (by omega)]
      simp only
      rw [ih (value :: read) (by omega), List.reverse_cons, List.append_assoc, List.singleton_append]

namespace Lossless

theorem word32 : word32.Lossless where
  encode_ne_nil w := Varint.encode_ne_nil w.toNat
  decode_encode w rest _ := by
    have hread := @Varint.decode_encode w.toNat 4 15 (by decide) w.toNat_lt rest
    simp only [Codec.word32, hread, Decoded.map_ok, UInt32.ofNat_toNat]

theorem word64 : word64.Lossless where
  encode_ne_nil w := Varint.encode_ne_nil w.toNat
  decode_encode w rest _ := by
    have hread := @Varint.decode_encode w.toNat 9 1 (by decide) w.toNat_lt rest
    simp only [Codec.word64, hread, Decoded.map_ok, UInt64.ofNat_toNat]

theorem long : long.Lossless where
  encode_ne_nil i := Varint.encode_ne_nil _
  decode_encode i rest _ := by
    have hread := @Varint.decode_encode _ 9 1 (by decide) (Varint.fold_toInt_lt i) rest
    simp only [Codec.long, hread, Decoded.map_ok, Varint.unfold_fold, Int64.ofInt_toInt]

theorem double : double.Lossless where
  encode_ne_nil x := List.ne_nil_of_length_pos (by rw [Codec.double, length_littleEndian]; decide)
  decode_encode x rest _ := by
    simp only [Codec.double, takeExactly_append (length_littleEndian 8 _), Decoded.map_ok,
      @ofLittleEndian_littleEndian _ 8 x.bits.toNat_lt, UInt64.ofNat_toNat]

theorem flag : flag.Lossless where
  encode_ne_nil b := List.cons_ne_nil _ _
  decode_encode b rest _ := by cases b <;> rfl

theorem bytes : bytes.Lossless where
  encode_ne_nil b := List.append_ne_nil_of_left_ne_nil (Varint.encode_ne_nil _) _
  decode_encode b rest length := by
    rw [Codec.bytes, List.length_append] at length
    exact decode_bytes (by omega) rest

theorem text : text.Lossless where
  encode_ne_nil s := bytes.encode_ne_nil _
  decode_encode s rest length := by
    simp only [Codec.text] at length ⊢
    rw [bytes.decode_encode _ _ length, Decoded.andThen_ok, Text.ofUtf8?_utf8]

theorem map (h : c.Lossless) {build : α → β} {view : β → α} (inverse : ∀ b, build (view b) = b) :
    (c.map build view).Lossless where
  encode_ne_nil b := h.encode_ne_nil (view b)
  decode_encode b rest length := by
    simp only [Codec.map] at length ⊢
    rw [h.decode_encode _ _ length, Decoded.map_ok, inverse]

theorem pair (hc : c.Lossless) (hd : d.Lossless) : (c.pair d).Lossless where
  encode_ne_nil v := List.append_ne_nil_of_left_ne_nil (hc.encode_ne_nil v.1) _
  decode_encode v rest length := by
    simp only [Codec.pair, List.length_append] at length ⊢
    rw [List.append_assoc, hc.decode_encode _ _ (by omega), Decoded.andThen_ok,
      hd.decode_encode _ _ (by omega), Decoded.map_ok]

theorem option (h : c.Lossless) : (option c).Lossless where
  encode_ne_nil a := by cases a <;> exact List.cons_ne_nil _ _
  decode_encode a rest length := by
    cases a with
    | none => rfl
    | some a =>
        simp only [Codec.option, List.length_cons] at length
        have hread := h.decode_encode a rest (by omega)
        exact (congrArg (Decoded.map some) hread).trans (Decoded.map_ok some rest)

theorem length_le_flatMap (h : c.Lossless) (values : List α) :
    values.length ≤ (values.flatMap c.encode).length := by
  induction values with
  | nil => exact Nat.le_refl 0
  | cons value values ih =>
      have hpos := List.length_pos_iff.mpr (h.encode_ne_nil value)
      rw [List.flatMap_cons, List.length_append, List.length_cons]
      omega

theorem list (h : c.Lossless) : (list c).Lossless where
  encode_ne_nil values := List.append_ne_nil_of_left_ne_nil (Varint.encode_ne_nil _) _
  decode_encode values rest length := by
    simp only [Codec.list, List.length_append] at length ⊢
    have hcount := h.length_le_flatMap values
    rw [List.append_assoc, decode_count (by omega), Decoded.andThen_ok,
      decodeMany_flatMap h [] rest (by omega)]
    rfl

/-- A type with numbered variants: each branch reads what was written behind its number. -/
theorem tagged {tag : α → UInt32} {payload : α → List UInt8}
    {branch : Nat → Option (List UInt8 → Decoded α)}
    (branches : ∀ a, ∃ read, branch (tag a).toNat = some read ∧
      ∀ rest, (payload a).length < 2 ^ 64 → read (payload a ++ rest) = .ok (a, rest)) :
    (tagged tag payload branch).Lossless where
  encode_ne_nil a := List.append_ne_nil_of_left_ne_nil (word32.encode_ne_nil _) _
  decode_encode a rest length := by
    obtain ⟨read, hbranch, hread⟩ := branches a
    simp only [Codec.tagged, List.length_append] at length ⊢
    rw [List.append_assoc, word32.decode_encode _ _ (by omega), Decoded.andThen_ok, hbranch]
    exact hread rest (by omega)

theorem map_decode (h : c.Lossless) (build : α → β) (a : α) (rest : List UInt8)
    (length : (c.encode a).length < 2 ^ 64) :
    (c.decode (c.encode a ++ rest)).map build = .ok (build a, rest) := by
  rw [h.decode_encode a rest length, Decoded.map_ok]

theorem nodeId : nodeId.Lossless := text.map fun _ => rfl

theorem indexName : indexName.Lossless := text.map fun _ => rfl

theorem shardId : shardId.Lossless := (indexName.pair word32).map fun _ => rfl

theorem aliasFilter : aliasFilter.Lossless := (text.list.pair bytes.option).map fun _ => rfl

theorem sortOrder : sortOrder.Lossless :=
  tagged fun order => by
    cases order
    case ascending => exact ⟨_, rfl, fun _ _ => rfl⟩
    case descending => exact ⟨_, rfl, fun _ _ => rfl⟩

theorem shardTarget : shardTarget.Lossless :=
  (shardId.pair <| text.option.pair <| aliasFilter.pair nodeId.list).map fun _ => rfl

theorem sortSpec : sortSpec.Lossless := (text.pair sortOrder).map fun _ => rfl

theorem bound : bound.Lossless :=
  tagged fun bound => by
    cases bound
    case long a b => exact ⟨_, rfl, (long.pair long).map_decode (fun v => Bound.long v.1 v.2) (a, b)⟩
    case double a b =>
      exact ⟨_, rfl, (double.pair double).map_decode (fun v => Bound.double v.1 v.2) (a, b)⟩
    case text a b => exact ⟨_, rfl, (text.pair text).map_decode (fun v => Bound.text v.1 v.2) (a, b)⟩

theorem outcome : outcome.Lossless := (flag.pair <| bound.option.pair flag).map fun _ => rfl

theorem probeRequest : probeRequest.Lossless :=
  (shardId.pair <| nodeId.pair <| text.option.pair <| aliasFilter.pair <|
    bytes.option.pair <| sortSpec.option.pair word64).map fun _ => rfl

theorem probeResponse : probeResponse.Lossless := (flag.pair bound.option).map fun _ => rfl

theorem probeMessage : probeMessage.Lossless :=
  tagged fun message => by
    cases message
    case request r => exact ⟨_, rfl, probeRequest.map_decode ProbeMessage.request r⟩
    case response r => exact ⟨_, rfl, probeResponse.map_decode ProbeMessage.response r⟩
    case failure t => exact ⟨_, rfl, text.map_decode ProbeMessage.failure t⟩

theorem settings : settings.Lossless :=
  (word64.option.pair <| word64.pair <| word64.pair <| flag.pair word64.option).map fun _ => rfl

theorem eq_of_prefix (h : c.Lossless) {a a' : α} (length : (c.encode a).length < 2 ^ 64)
    (initial : c.encode a' <+: c.encode a) : a' = a := by
  obtain ⟨rest, hrest⟩ := initial
  have hshort : (c.encode a').length < 2 ^ 64 := by
    rw [← hrest, List.length_append] at length
    omega
  have hread := h.decode_encode a [] length
  rw [List.append_nil, ← hrest, h.decode_encode a' rest hshort] at hread
  exact (Prod.mk.inj (Except.ok.inj hread)).1

end Lossless

/-- The formats of the data types as such, a sort only as one that may be absent. -/
inductive Serialized : {α : Type} → Codec α → Prop where
  | nodeId : Serialized nodeId
  | shardId : Serialized shardId
  | aliasFilter : Serialized aliasFilter
  | shardTarget : Serialized shardTarget
  | sortOrder : Serialized sortOrder
  | sort : Serialized (option sortSpec)
  | bound : Serialized bound
  | outcome : Serialized outcome
  | probeRequest : Serialized probeRequest
  | probeResponse : Serialized probeResponse
  | probeMessage : Serialized probeMessage
  | settings : Serialized settings

namespace Serialized

theorem lossless (h : Serialized c) : c.Lossless := by
  cases h with
  | nodeId => exact .nodeId
  | shardId => exact .shardId
  | aliasFilter => exact .aliasFilter
  | shardTarget => exact .shardTarget
  | sortOrder => exact .sortOrder
  | sort => exact Lossless.sortSpec.option
  | bound => exact .bound
  | outcome => exact .outcome
  | probeRequest => exact .probeRequest
  | probeResponse => exact .probeResponse
  | probeMessage => exact .probeMessage
  | settings => exact .settings

/-- Every data type is read back from the front of a byte string: the value is the one that was
written, and just the bytes after it are left. So two values never have one encoding, and no encoding
begins with that of another value. -/
theorem reads_back (h : Serialized c) (value : α) (rest : List UInt8)
    (length : (c.encode value).length < 2 ^ 64) :
    c.decode (c.encode value ++ rest) = .ok (value, rest) ∧
      ∀ other, c.encode other <+: c.encode value → other = value :=
  ⟨h.lossless.decode_encode value rest length, fun _ => h.lossless.eq_of_prefix length⟩

/-- The bound with the longest numbers. -/
def wholeRange : Bound := .long Int64.minValue Int64.maxValue

theorem reads_back_wholeRange :
    (Codec.bound.encode wholeRange).length = 21 ∧
      Codec.bound.decode (Codec.bound.encode wholeRange ++ [128]) = .ok (wholeRange, [128]) ∧
      ∀ other, Codec.bound.encode other <+: Codec.bound.encode wholeRange → other = wholeRange := by
  have hlength : (Codec.bound.encode wholeRange).length = 21 := by decide +kernel
  exact ⟨hlength, reads_back .bound wholeRange [128] (by rw [hlength]; decide)⟩

end Serialized
end Codec
end Wire
end Prefilter
