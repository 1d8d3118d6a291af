import Prefilter.Proofs.Wire.Lossless
import Prefilter.Wire.Frame

namespace Prefilter.Wire

variable {m : ProbeMessage} {frame payload : List UInt8} {n k : Nat}

theorem Codec.length_long_le (i : Int64) : (long.encode i).length ≤ 10 :=
  Varint.length_encode_le (Nat.lt_of_lt_of_le (Varint.fold_toInt_lt i) (by decide))

theorem Codec.length_word32_le (w : UInt32) : (word32.encode w).length ≤ 5 :=
  Varint.length_encode_le (Nat.lt_of_lt_of_le w.toNat_lt (by decide))

namespace Frame

theorem encode_eq_ok : encode m = .ok frame ↔ (Codec.probeMessage.encode m).length ≤ maxPayload ∧
    frame = header (Codec.probeMessage.encode m).length ++ Codec.probeMessage.encode m := by
  rw [encode]
  split
  · rename_i htoo
    simp only [reduceCtorEq, Nat.not_le.mpr htoo, false_and]
  · rename_i hfits
    simp only [Except.ok.injEq, Nat.le_of_not_lt hfits, true_and]
    exact eq_comm

theorem encode_of_length_le (h : (Codec.probeMessage.encode m).length ≤ maxPayload) :
    encode m = .ok (header (Codec.probeMessage.encode m).length ++ Codec.probeMessage.encode m) :=
  encode_eq_ok.mpr ⟨h, rfl⟩

theorem length_header (n : Nat) : (header n).length = 4 := by
  rw [header, List.length_reverse, length_littleEndian]

theorem ofLittleEndian_reverse_header (h : n ≤ maxPayload) :
    ofLittleEndian (header n).reverse = n := by
  rw [header, List.reverse_reverse]
  exact ofLittleEndian_littleEndian (Nat.lt_of_le_of_lt h (by decide))

theorem decode_of_length_lt (h : frame.length < 4) :
    decode frame = .error (.truncated 4 frame.length) := by
  rcases frame with _ | ⟨a, _ | ⟨b, _ | ⟨c, _ | ⟨d, payload⟩⟩⟩⟩
  case cons.cons.cons.cons =>
    simp only [List.length_cons] at h
    omega
  all_goals rfl

theorem decode_header (h : n ≤ maxPayload) (bytes : List UInt8) :
    decode (header n ++ bytes) =
      if bytes.length < n then .error (.truncated n bytes.length)
      else if n < bytes.length then
        .error (.serialization s!"{bytes.length - n} trailing bytes after frame")
      else decodePayload bytes := by
  have hread := ofLittleEndian_reverse_header h
  simp only [header, List.reverse_reverse, littleEndian] at hread
  simp only [header, littleEndian, List.reverse_cons, List.reverse_nil, List.nil_append,
    List.cons_append, decode, hread, Nat.not_lt.mpr h, if_false]

theorem decode_header_append (h : payload.length ≤ maxPayload) :
    decode (header payload.length ++ payload) = decodePayload payload := by
  simp only [decode_header h, Nat.lt_irrefl, if_false]

theorem decode_encode (h : encode m = .ok frame) : decode frame = .ok m := by
  obtain ⟨hlength, rfl⟩ := encode_eq_ok.mp h
  have hread := Codec.Lossless.probeMessage.decode_encode m []
    (Nat.lt_of_le_of_lt hlength (by decide))
  rw [List.append_nil] at hread
  rw [decode_header_append hlength, decodePayload, hread]

theorem decode_take (h : payload.length ≤ maxPayload)
    (hk : k < (header payload.length ++ payload).length) :
    ∃ expected actual,
      decode ((header payload.length ++ payload).take k) = .error (.truncated expected actual) := by
  rw [List.length_append, length_header] at hk
  by_cases hshort : k < 4
  · refine ⟨4, _, decode_of_length_lt ?_⟩
    rw [List.length_take]
    omega
  · refine ⟨payload.length, (payload.take (k - 4)).length, ?_⟩
    have hcut : (payload.take (k - 4)).length < payload.length := by
      rw [List.length_take]
      omega
    rw [List.take_append, length_header, List.take_of_length_le (by rw [length_header]; omega),
      decode_header h, if_pos hcut]

theorem decode_append {extra : List UInt8} (h : payload.length ≤ maxPayload) (hextra : extra ≠ []) :
    decode (header payload.length ++ payload ++ extra) =
      .error (.serialization s!"{extra.length} trailing bytes after frame") := by
  have hpos : 0 < extra.length := List.length_pos_iff.mpr hextra
  rw [List.append_assoc, decode_header h, List.length_append, if_neg (by omega), if_pos (by omega),
    Nat.add_sub_cancel_left]

theorem decodePayload_eq_ok : decodePayload payload = .ok m ↔
    ∃ unread, Codec.probeMessage.decode payload = .ok (m, unread) := by
  rw [decodePayload]
  split
  · rename_i m' unread hread
    simp [hread]
  · rename_i fault hread
    simp [hread]

theorem decode_cons_eq_ok {a b c d : UInt8} (h : decode (a :: b :: c :: d :: payload) = .ok m) :
    payload.length ≤ maxPayload ∧ payload.length = ofLittleEndian [d, c, b, a] ∧
      decodePayload payload = .ok m := by
  rw [decode] at h
  split at h
  · cases h
  · split at h
    · cases h
    · split at h
      · cases h
      · exact ⟨by omega, by omega, h⟩

/-- A message is framed just when its encoding fits, and the refusal of a larger one tells its size. A
frame says the length of its payload in its first four bytes and gives the message back; short of any
of its bytes it is truncated, and it is not taken with any byte more. -/
theorem self_delimiting (m : ProbeMessage) :
    ((∃ frame, encode m = .ok frame) ↔ (Codec.probeMessage.encode m).length ≤ maxPayload) ∧
    (maxPayload < (Codec.probeMessage.encode m).length →
      encode m = .error (.frameTooLarge (Codec.probeMessage.encode m).length maxPayload)) ∧
    ∀ frame, encode m = .ok frame →
      ofLittleEndian (frame.take 4).reverse = (Codec.probeMessage.encode m).length ∧
      frame.drop 4 = Codec.probeMessage.encode m ∧
      decode frame = .ok m ∧
      (∀ k < frame.length, ∃ expected actual,
        decode (frame.take k) = .error (.truncated expected actual)) ∧
      ∀ extra ≠ [], decode (frame ++ extra) =
        .error (.serialization s!"{extra.length} trailing bytes after frame") := by
  refine ⟨?_, ?_, ?_⟩
  · constructor
    · rintro ⟨frame, h⟩
      exact (encode_eq_ok.mp h).1
    · intro h
      exact ⟨_, encode_of_length_le h⟩
  · intro h
    rw [encode, if_pos h]
  · intro frame h
    have hdecode := decode_encode h
    obtain ⟨hlength, rfl⟩ := encode_eq_ok.mp h
    refine ⟨?_, ?_, hdecode, ?_, ?_⟩
    · rw [List.take_left' (length_header _), ofLittleEndian_reverse_header hlength]
    · rw [List.drop_left' (length_header _)]
    · exact fun k hk => decode_take hlength hk
    · exact fun extra hextra => decode_append hlength hextra

/-- A response with a bound from minus zero to a number that is none. -/
def oddBound : ProbeMessage :=
  .response { canMatch := true, bound := some (.double ⟨0x8000000000000000⟩ ⟨0x7ff8000000000001⟩) }

theorem self_delimiting_oddBound :
    ∃ frame, encode oddBound = .ok frame ∧ frame.length = 24 ∧ decode frame = .ok oddBound ∧
      (∃ expected actual, decode (frame.take 23) = .error (.truncated expected actual)) ∧
      decode (frame ++ [0]) = .error (.serialization "1 trailing bytes after frame") := by
  have hlength : (Codec.probeMessage.encode oddBound).length = 20 := by decide +kernel
  obtain ⟨hfits, -, hframe⟩ := self_delimiting oddBound
  obtain ⟨frame, h⟩ := hfits.mpr (by rw [hlength]; decide)
  obtain ⟨-, hpayload, hdecode, htake, happend⟩ := hframe frame h
  have hsize : frame.length = 24 := by
    have hdrop := congrArg List.length hpayload
    rw [List.length_drop, hlength] at hdrop
    omega
  exact ⟨frame, h, hsize, hdecode, htake 23 (by omega), happend [0] (List.cons_ne_nil _ _)⟩

/-- Exactly the byte strings that say their length and begin, behind it, with a message are taken; what
the message leaves unread is ignored. -/
theorem decode_eq_ok_iff (frame : List UInt8) (m : ProbeMessage) :
    decode frame = .ok m ↔ ∃ payload unread, payload.length ≤ maxPayload ∧
      frame = header payload.length ++ payload ∧
      Codec.probeMessage.decode payload = .ok (m, unread) := by
  constructor
  · intro h
    rcases frame with _ | ⟨a, _ | ⟨b, _ | ⟨c, _ | ⟨d, payload⟩⟩⟩⟩
    case cons.cons.cons.cons =>
      obtain ⟨hlength, hsize, hpayload⟩ := decode_cons_eq_ok h
      have hheader : header payload.length = [a, b, c, d] := by
        rw [header, hsize]
        exact congrArg List.reverse (littleEndian_ofLittleEndian [d, c, b, a])
      obtain ⟨unread, hread⟩ := decodePayload_eq_ok.mp hpayload
      exact ⟨payload, unread, hlength, by rw [hheader]; rfl, hread⟩
    all_goals simp [decode] at h
  · rintro ⟨payload, unread, hlength, rfl, hread⟩
    rw [decode_header_append hlength, decodePayload, hread]

/-- A response that is followed, inside its frame, by one byte more. -/
theorem decode_leaves_unread : ¬ ∀ (frame : List UInt8) (m : ProbeMessage), decode frame = .ok m →
    ∃ payload, frame = header payload.length ++ payload ∧
      Codec.probeMessage.decode payload = .ok (m, []) := by
  intro hall
  obtain ⟨payload, hframe, hread⟩ :=
    hall [0, 0, 0, 4, 1, 0, 0, 255] (.response { canMatch := false }) (by rfl)
  have hpayload : payload = [1, 0, 0, 255] := by
    have hdrop := congrArg (List.drop 4) hframe
    rw [List.drop_left' (length_header _)] at hdrop
    exact hdrop.symm
  rw [hpayload] at hread
  have hunread : Codec.probeMessage.decode [1, 0, 0, 255] =
      .ok (.response { canMatch := false }, [255]) := by rfl
  simp [hunread] at hread

end Frame
end Prefilter.Wire
