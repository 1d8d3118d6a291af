import Prefilter.Proofs.Wire.Framing

/-!
Encodings are the shortest. A decoder takes many spellings of a value, as it accepts numbers in more
groups than they need; the encoder writes the one that is never longer. So whatever frame a message came
in, the message fits into a frame again (`resend`).
-/

namespace Prefilter

theorem Text.utf8_of_ofUtf8? {b : List UInt8} {s : String} (h : ofUtf8? b = some s) : utf8 s = b := by
  rw [ofUtf8?, String.fromUTF8?] at h
  split at h
  · cases h
    rfl
  · cases h

namespace Wire

variable {α β : Type} {a : α} {b : β} {c : Codec α} {d : Codec β} {n : Nat} {input rest : List UInt8}

theorem Decoded.map_eq_ok {f : α → β} {decoded : Decoded α} (h : decoded.map f = .ok (b, rest)) :
    ∃ a, decoded = .ok (a, rest) ∧ f a = b := by
  cases decoded with
  | error fault => cases h
  | ok read =>
      cases h
      exact ⟨read.1, rfl, rfl⟩

theorem Decoded.andThen_eq_ok {next : α → List UInt8 → Decoded β} {decoded : Decoded α}
    (h : decoded.andThen next = .ok (b, rest)) :
    ∃ a between, decoded = .ok (a, between) ∧ next a between = .ok (b, rest) := by
  cases decoded with
  | error fault => cases h
  | ok read => exact ⟨read.1, read.2, rfl, h⟩

namespace Codec

/-- What the codec writes for a value that it has read is no longer than what it read. -/
structure Shortest (c : Codec α) : Prop where
  length_encode_add_le : ∀ {input rest : List UInt8} {a : α}, c.decode input = .ok (a, rest) →
    (c.encode a).length + rest.length ≤ input.length

namespace Shortest

theorem count : count.Shortest where
  length_encode_add_le h := Varint.length_encode_add_le h

theorem word32 : word32.Shortest where
  length_encode_add_le h := by
    obtain ⟨n, hread, rfl⟩ := Decoded.map_eq_ok h
    have hn : (UInt32.ofNat n).toNat = n := UInt32.toNat_ofNat_of_lt (Varint.decode_lt hread)
    simp only [Codec.word32, hn]
    exact Varint.length_encode_add_le hread

theorem word64 : word64.Shortest where
  length_encode_add_le h := by
    obtain ⟨n, hread, rfl⟩ := Decoded.map_eq_ok h
    have hn : (UInt64.ofNat n).toNat = n := UInt64.toNat_ofNat_of_lt (Varint.decode_lt hread)
    simp only [Codec.word64, hn]
    exact Varint.length_encode_add_le hread

theorem long : long.Shortest where
  length_encode_add_le h := by
    obtain ⟨n, hread, rfl⟩ := Decoded.map_eq_ok h
    simp only [Codec.long, Varint.toInt_ofInt_unfold (Varint.decode_lt hread), Varint.fold_unfold]
    exact Varint.length_encode_add_le hread

theorem double : double.Shortest where
  length_encode_add_le h := by
    obtain ⟨taken, hread, rfl⟩ := Decoded.map_eq_ok h
    obtain ⟨rfl, htaken⟩ := takeExactly_eq_ok hread
    simp only [Codec.double, length_littleEndian, List.length_append, htaken, Nat.le_refl]

theorem flag : flag.Shortest where
  length_encode_add_le {input rest a} h := by
    cases input with
    | nil => cases h
    | cons b input =>
        simp only [Codec.flag] at h
        split at h
        · cases h
          exact Nat.le_of_eq (Nat.add_comm 1 _)
        · split at h
          · cases h
            exact Nat.le_of_eq (Nat.add_comm 1 _)
          · cases h

theorem bytes : bytes.Shortest where
  length_encode_add_le h := by
    obtain ⟨n, between, hcount, htake⟩ := Decoded.andThen_eq_ok h
    obtain ⟨rfl, rfl⟩ := takeExactly_eq_ok htake
    have hle := count.length_encode_add_le hcount
    simp only [Codec.bytes, List.length_append] at hle ⊢
    omega

theorem text : text.Shortest where
  length_encode_add_le h := by
    obtain ⟨b, between, hbytes, htext⟩ := Decoded.andThen_eq_ok h
    split at htext
    · rename_i s hs
      cases htext
      simp only [Codec.text, Text.utf8_of_ofUtf8? hs]
      exact bytes.length_encode_add_le hbytes
    · cases htext

theorem map (h : c.Shortest) {build : α → β} {view : β → α} (inverse : ∀ a, view (build a) = a) :
    (c.map build view).Shortest where
  length_encode_add_le hread := by
    obtain ⟨a, ha, rfl⟩ := Decoded.map_eq_ok hread
    simp only [Codec.map, inverse]
    exact h.length_encode_add_le ha

theorem pair (hc : c.Shortest) (hd : d.Shortest) : (c.pair d).Shortest where
  length_encode_add_le h := by
    obtain ⟨a, between, ha, hmap⟩ := Decoded.andThen_eq_ok h
    obtain ⟨b, hb, rfl⟩ := Decoded.map_eq_ok hmap
    have hfirst := hc.length_encode_add_le ha
    have hsecond := hd.length_encode_add_le hb
    simp only [Codec.pair, List.length_append]
    omega

theorem option (h : c.Shortest) : (option c).Shortest where
  length_encode_add_le {input rest a} hread := by
    cases input with
    | nil => cases hread
    | cons b input =>
        simp only [Codec.option] at hread
        split at hread
        · cases hread
          exact Nat.le_of_eq (Nat.add_comm 1 _)
        · split at hread
          · obtain ⟨value, hvalue, rfl⟩ := Decoded.map_eq_ok hread
            have hle := h.length_encode_add_le hvalue
            simp only [Codec.option, List.length_cons]
            omega
          · cases hread

theorem decodeMany (h : c.Shortest) {values read : List α}
    (hread : decodeMany c n read input = .ok (values, rest)) :
    ∃ more, values = read.reverse ++ more ∧ more.length = n ∧
      (more.flatMap c.encode).length + rest.length ≤ input.length := by
  induction n generalizing read input with
  | zero =>
      cases hread
      exact ⟨[], by simp⟩
  | succ n ih =>
      rw [Codec.decodeMany] at hread
      split at hread
      · rename_i a between ha
        obtain ⟨more, rfl, rfl, hle⟩ := ih hread
        have hfirst := h.length_encode_add_le ha
        refine ⟨a :: more, by simp, rfl, ?_⟩
        rw [List.flatMap_cons, List.length_append]
        omega
      · cases hread

theorem list (h : c.Shortest) : (list c).Shortest where
  length_encode_add_le hread := by
    obtain ⟨n, between, hcount, hmany⟩ := Decoded.andThen_eq_ok hread
    obtain ⟨values, rfl, rfl, hle⟩ := h.decodeMany hmany
    have hfirst := count.length_encode_add_le hcount
    simp only [Codec.list, List.length_append]
    omega

theorem tagged {tag : α → UInt32} {payload : α → List UInt8}
    {branch : Nat → Option (List UInt8 → Decoded α)}
    (branches : ∀ {t : UInt32} {read : List UInt8 → Decoded α} {input rest : List UInt8} {a : α},
      branch t.toNat = some read → read input = .ok (a, rest) →
        (tag a).toNat = t.toNat ∧ (payload a).length + rest.length ≤ input.length) :
    (tagged tag payload branch).Shortest where
  length_encode_add_le h := by
    obtain ⟨t, between, htag, hbranch⟩ := Decoded.andThen_eq_ok h
    split at hbranch
    · rename_i read hfound
      obtain ⟨heq, hpayload⟩ := branches hfound hbranch
      have hle := word32.length_encode_add_le htag
      simp only [Codec.tagged, UInt32.toNat_inj.mp heq, List.length_append]
      omega
    · cases hbranch

theorem of_branch (h : c.Shortest) {build : α → β} {read : List UInt8 → Decoded β}
    (hbranch : some (fun bytes => (c.decode bytes).map build) = some read)
    (hread : read input = .ok (b, rest)) :
    ∃ a, build a = b ∧ (c.encode a).length + rest.length ≤ input.length := by
  cases hbranch
  obtain ⟨a, ha, heq⟩ := Decoded.map_eq_ok hread
  exact ⟨a, heq, h.length_encode_add_le ha⟩

theorem nodeId : nodeId.Shortest := text.map fun _ => rfl

theorem indexName : indexName.Shortest := text.map fun _ => rfl

theorem shardId : shardId.Shortest := (indexName.pair word32).map fun _ => rfl

theorem aliasFilter : aliasFilter.Shortest := (text.list.pair bytes.option).map fun _ => rfl

theorem sortOrder : sortOrder.Shortest :=
  tagged fun {t read input rest a} hbranch hread => by
    split at hbranch
    · rename_i ht
      cases hbranch
      cases hread
      exact ⟨ht.symm, Nat.le_of_eq (Nat.zero_add _)⟩
    · rename_i ht
      cases hbranch
      cases hread
      exact ⟨ht.symm, Nat.le_of_eq (Nat.zero_add _)⟩
    · cases hbranch

theorem sortSpec : sortSpec.Shortest := (text.pair sortOrder).map fun _ => rfl

theorem bound : bound.Shortest :=
  tagged fun {t read input rest a} hbranch hread => by
    split at hbranch
    · rename_i ht
      obtain ⟨v, rfl, hle⟩ := (long.pair long).of_branch hbranch hread
      exact ⟨ht.symm, hle⟩
    · rename_i ht
      obtain ⟨v, rfl, hle⟩ := (double.pair double).of_branch hbranch hread
      exact ⟨ht.symm, hle⟩
    · rename_i ht
      obtain ⟨v, rfl, hle⟩ := (text.pair text).of_branch hbranch hread
      exact ⟨ht.symm, hle⟩
    · cases hbranch

theorem probeRequest : probeRequest.Shortest :=
  (shardId.pair <| nodeId.pair <| text.option.pair <| aliasFilter.pair <|
    bytes.option.pair <| sortSpec.option.pair word64).map fun _ => rfl

theorem probeResponse : probeResponse.Shortest := (flag.pair bound.option).map fun _ => rfl

theorem probeMessage : probeMessage.Shortest :=
  tagged fun {t read input rest a} hbranch hread => by
    split at hbranch
    · rename_i ht
      obtain ⟨r, rfl, hle⟩ := probeRequest.of_branch hbranch hread
      exact ⟨ht.symm, hle⟩
    · rename_i ht
      obtain ⟨r, rfl, hle⟩ := probeResponse.of_branch hbranch hread
      exact ⟨ht.symm, hle⟩
    · rename_i ht
      obtain ⟨t, rfl, hle⟩ := text.of_branch hbranch hread
      exact ⟨ht.symm, hle⟩
    · cases hbranch

end Shortest
end Codec

namespace Frame

variable {m : ProbeMessage} {frame : List UInt8}

theorem length_encode_le_of_decode (h : decode frame = .ok m) :
    ∃ payload : List UInt8, payload.length ≤ maxPayload ∧ frame.length = 4 + payload.length ∧
      (Codec.probeMessage.encode m).length ≤ payload.length := by
  rcases frame with _ | ⟨x, _ | ⟨y, _ | ⟨z, _ | ⟨w, payload⟩⟩⟩⟩
  case cons.cons.cons.cons =>
    obtain ⟨hlength, -, hpayload⟩ := decode_cons_eq_ok h
    obtain ⟨unread, hread⟩ := decodePayload_eq_ok.mp hpayload
    have hle := Codec.Shortest.probeMessage.length_encode_add_le hread
    exact ⟨payload, hlength, by simp only [List.length_cons]; omega, by omega⟩
  all_goals simp [decode] at h

/-- A message that came in a frame can be sent on. It is framed again, in no more bytes than it came in
and whatever spellings those were; the new frame holds the same message, and to decode and encode that
one gives it back. -/
theorem resend (h : decode frame = .ok m) :
    ∃ again, encode m = .ok again ∧ again.length ≤ frame.length ∧ decode again = .ok m ∧
      (decode again).bind encode = .ok again := by
  obtain ⟨payload, hpayload, hframe, hle⟩ := length_encode_le_of_decode h
  have hencode := encode_of_length_le (Nat.le_trans hle hpayload)
  have hdecode := decode_encode hencode
  refine ⟨_, hencode, ?_, hdecode, ?_⟩
  · rw [List.length_append, length_header, hframe]
    omega
  · rw [hdecode]
    exact hencode

/-- A response in longer spellings than it needs: its variant, the kind of its bound and the least value
of the bound each take one group too many, and a byte is left over. -/
def wordy : List UInt8 := [0, 0, 0, 11, 129, 0, 1, 1, 128, 0, 129, 128, 0, 4, 255]

theorem resend_wordy :
    ∃ m again, decode wordy = .ok m ∧ encode m = .ok again ∧ again.length = 10 ∧
      again.length ≤ wordy.length ∧ decode again = .ok m := by
  have hread : decode wordy =
      .ok (.response { canMatch := true, bound := some (.long (-1) 2) }) := by decide +kernel
  obtain ⟨again, hencode, hle, hdecode, -⟩ := resend hread
  have hlength : again.length = 10 := by
    obtain ⟨-, rfl⟩ := encode_eq_ok.mp hencode
    decide +kernel
  exact ⟨_, again, hread, hencode, hlength, hle, hdecode⟩

end Frame
end Wire
end Prefilter
