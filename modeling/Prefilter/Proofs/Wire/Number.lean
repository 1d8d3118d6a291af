import Mathlib.Algebra.Group.Nat.Defs
import Mathlib.Tactic.Common
import Prefilter.Wire.Varint

namespace Prefilter.Wire

namespace Varint

variable {n groups last : Nat}

theorem encode_of_lt (h : n < 128) : encode n = [.ofNat n] := by
  rw [encode, if_pos h]

theorem encode_of_le (h : 128 ≤ n) :
    encode n = .ofNat (n % 128 + 128) :: encode (n / 128) := by
  rw [encode, if_neg (Nat.not_lt.mpr h)]

theorem encode_ne_nil (n : Nat) : encode n ≠ [] := by
  rw [encode]
  split <;> exact List.cons_ne_nil _ _

theorem toNat_last (h : n < 128) : (UInt8.ofNat n).toNat = n :=
  UInt8.toNat_ofNat_of_lt (Nat.lt_trans h (by decide))

theorem toNat_group (n : Nat) : (UInt8.ofNat (n % 128 + 128)).toNat = n % 128 + 128 := by
  have hlt := Nat.mod_lt n (show 0 < 128 by decide)
  exact UInt8.toNat_ofNat_of_lt (show _ < 256 by omega)

theorem decode_encode (hlast : last < 128) (h : n < (last + 1) * 128 ^ groups) (rest : List UInt8) :
    decode last (groups + 1) (encode n ++ rest) = .ok (n, rest) := by
  induction groups generalizing n with
  | zero =>
      rw [Nat.pow_zero, Nat.mul_one] at h
      have hlt : n < 128 := by omega
      rw [encode_of_lt hlt]
      simp [decode, toNat_last hlt, hlt, Nat.le_of_lt_succ h]
  | succ groups ih =>
      by_cases hlt : n < 128
      · rw [encode_of_lt hlt]
        simp [decode, toNat_last hlt, hlt]
      · have hrest : n / 128 < (last + 1) * 128 ^ groups := by
          rw [Nat.pow_succ, ← Nat.mul_assoc] at h
          exact Nat.div_lt_of_lt_mul (by rwa [Nat.mul_comm])
        rw [encode_of_le (Nat.le_of_not_lt hlt), List.cons_append, decode, toNat_group,
          if_neg (Nat.not_lt.mpr (Nat.le_add_left _ _)), ih hrest]
        simp only [Decoded.map, Nat.add_sub_cancel, Nat.mod_add_div]

/-- What is read as a number begins with its last group, or with another one before the number that the
groups after it make. -/
theorem decode_succ_cases {input rest : List UInt8}
    (h : decode last (groups + 1) input = .ok (n, rest)) :
    ∃ b tail, input = b :: tail ∧
      ((b.toNat < 128 ∧ (groups = 0 → b.toNat ≤ last) ∧ n = b.toNat ∧ rest = tail) ∨
        ∃ low high, low < 128 ∧ n = low + 128 * high ∧
          decode last groups tail = .ok (high, rest)) := by
  cases input with
  | nil => cases h
  | cons b tail =>
      refine ⟨b, tail, rfl, ?_⟩
      rw [decode] at h
      split at h
      · rename_i hlt
        split at h
        · cases h
        · rename_i hlast
          cases h
          exact .inl ⟨hlt, fun hzero => Nat.le_of_not_lt fun hgt => hlast ⟨hzero, hgt⟩, rfl, rfl⟩
      · cases hread : decode last groups tail with
        | error fault => simp [hread, Decoded.map] at h
        | ok read =>
            have hb := b.toNat_lt
            simp only [hread, Decoded.map, Except.ok.injEq, Prod.mk.injEq] at h
            obtain ⟨rfl, rfl⟩ := h
            exact .inr ⟨b.toNat - 128, read.1, by omega, rfl, rfl⟩

theorem decode_lt {input rest : List UInt8}
    (h : decode last (groups + 1) input = .ok (n, rest)) : n < (last + 1) * 128 ^ groups := by
  induction groups generalizing n input with
  | zero =>
      obtain ⟨b, tail, -, ⟨-, hle, rfl, -⟩ | ⟨low, high, -, -, hread⟩⟩ := decode_succ_cases h
      · rw [Nat.pow_zero, Nat.mul_one]
        exact Nat.lt_succ_of_le (hle rfl)
      · cases hread
  | succ groups ih =>
      rw [Nat.pow_succ, ← Nat.mul_assoc]
      obtain ⟨b, tail, -, ⟨hlt, -, rfl, -⟩ | ⟨low, high, hlow, rfl, hread⟩⟩ := decode_succ_cases h
      · have hpos : 0 < (last + 1) * 128 ^ groups :=
          Nat.mul_pos (Nat.succ_pos last) (Nat.pow_pos (by decide))
        omega
      · have hhigh := ih hread
        omega

theorem length_encode_group_le {low : Nat} (h : low < 128) (n : Nat) :
    (encode (low + 128 * n)).length ≤ (encode n).length + 1 := by
  by_cases hlt : low + 128 * n < 128
  · rw [encode_of_lt hlt]
    exact Nat.le_add_left _ _
  · have hdiv : (low + 128 * n) / 128 = n := by omega
    rw [encode_of_le (Nat.le_of_not_lt hlt), hdiv]
    exact Nat.le_refl _

/-- No spelling of a number is shorter than the one that is written. -/
theorem length_encode_add_le {input rest : List UInt8}
    (h : decode last groups input = .ok (n, rest)) :
    (encode n).length + rest.length ≤ input.length := by
  induction groups generalizing n input with
  | zero => cases h
  | succ groups ih =>
      obtain ⟨b, tail, rfl, ⟨hlt, -, rfl, rfl⟩ | ⟨low, high, hlow, rfl, hread⟩⟩ :=
        decode_succ_cases h
      · simp only [encode_of_lt hlt, List.length_cons, List.length_nil]
        omega
      · have hle := ih hread
        have hgroup := length_encode_group_le hlow high
        rw [List.length_cons]
        omega

theorem length_encode_le (h : n < 128 ^ (groups + 1)) : (encode n).length ≤ groups + 1 := by
  induction groups generalizing n with
  | zero =>
      rw [encode_of_lt (by simpa using h)]
      exact Nat.le_refl 1
  | succ groups ih =>
      by_cases hlt : n < 128
      · rw [encode_of_lt hlt]
        exact Nat.le_add_left _ _
      · rw [encode_of_le (Nat.le_of_not_lt hlt), List.length_cons]
        exact Nat.succ_le_succ (ih (Nat.div_lt_of_lt_mul (by rwa [Nat.mul_comm, ← Nat.pow_succ])))

theorem unfold_fold (i : Int) : unfold (fold i) = i := by
  rw [unfold, fold]
  split <;> split <;> omega

theorem fold_unfold (n : Nat) : fold (unfold n) = n := by
  rw [unfold, fold]
  split <;> split <;> omega

theorem fold_lt {i : Int} {bound : Nat} (least : -(bound : Int) ≤ i) (greatest : i < bound) :
    fold i < 2 * bound := by
  rw [fold]
  split <;> omega

theorem fold_toInt_lt (i : Int64) : fold i.toInt < 2 ^ 64 :=
  fold_lt i.le_toInt i.toInt_lt

theorem toInt_ofInt_unfold (h : n < 2 ^ 64) : (Int64.ofInt (unfold n)).toInt = unfold n := by
  rw [unfold]
  apply Int64.toInt_ofInt_of_le
  · split <;> omega
  · split <;> omega

end Varint

variable {n count : Nat}

theorem length_littleEndian (count n : Nat) : (littleEndian count n).length = count := by
  induction count generalizing n with
  | zero => rfl
  | succ count ih => rw [littleEndian, List.length_cons, ih]

theorem ofLittleEndian_littleEndian (h : n < 256 ^ count) :
    ofLittleEndian (littleEndian count n) = n := by
  induction count generalizing n with
  | zero =>
      rw [Nat.pow_zero, Nat.lt_one_iff] at h
      rw [h]
      rfl
  | succ count ih =>
      have hrest : n / 256 < 256 ^ count :=
        Nat.div_lt_of_lt_mul (by rwa [Nat.mul_comm, ← Nat.pow_succ])
      rw [littleEndian, ofLittleEndian, ih hrest, UInt8.toNat_ofNat']
      exact Nat.mod_add_div n 256

theorem littleEndian_ofLittleEndian (bytes : List UInt8) :
    littleEndian bytes.length (ofLittleEndian bytes) = bytes := by
  induction bytes with
  | nil => rfl
  | cons b rest ih =>
      have hlow : UInt8.ofNat (b.toNat + 256 * ofLittleEndian rest) = b := by
        rw [← UInt8.toNat_inj, UInt8.toNat_ofNat', Nat.add_mul_mod_self_left]
        exact Nat.mod_eq_of_lt b.toNat_lt
      have hhigh : (b.toNat + 256 * ofLittleEndian rest) / 256 = ofLittleEndian rest := by
        have hlt := b.toNat_lt
        omega
      rw [List.length_cons, ofLittleEndian, littleEndian, hlow, hhigh, ih]

theorem takeExactly_append {bytes : List UInt8} (h : bytes.length = count) (rest : List UInt8) :
    takeExactly count (bytes ++ rest) = .ok (bytes, rest) := by
  subst h
  simp [takeExactly]

theorem takeExactly_eq_ok {input taken rest : List UInt8}
    (h : takeExactly count input = .ok (taken, rest)) :
    input = taken ++ rest ∧ taken.length = count := by
  simp only [takeExactly, List.splitAt_eq] at h
  split at h
  · rename_i hlength
    cases h
    exact ⟨(List.take_append_drop count input).symm, hlength⟩
  · cases h

end Prefilter.Wire
