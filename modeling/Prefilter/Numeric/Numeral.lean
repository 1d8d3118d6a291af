namespace Prefilter.Numeric

/-- What a digit stands for, in bases up to sixteen. -/
def digitValue? (c : Char) : Option Nat :=
  if '0' ≤ c ∧ c ≤ '9' then some (c.toNat - '0'.toNat)
  else if 'a' ≤ c ∧ c ≤ 'f' then some (c.toNat - 'a'.toNat + 10)
  else if 'A' ≤ c ∧ c ≤ 'F' then some (c.toNat - 'A'.toNat + 10)
  else none

/-- A number with one more digit behind it. -/
def withDigit (base n : Nat) (c : Char) : Nat := base * n + (digitValue? c).getD 0

/-- The number that digits stand for, read by halves to some depth and digit by digit below. -/
def valueByHalves (base : Nat) : Nat → List Char → Nat
  | 0, digits => digits.foldl (withDigit base) 0
  | depth + 1, digits =>
    let (high, low) := digits.splitAt (digits.length / 2)
    valueByHalves base depth high * Nat.pow base low.length + valueByHalves base depth low

def valueOf (base : Nat) (digits : List Char) : Nat :=
  valueByHalves base (digits.length / 16).log2 digits

theorem foldl_withDigit (base n : Nat) (digits : List Char) :
    digits.foldl (withDigit base) n =
      n * Nat.pow base digits.length + digits.foldl (withDigit base) 0 := by
  induction digits generalizing n with
  | nil => simp [Nat.pow_eq]
  | cons c rest ih =>
    rw [List.foldl_cons, List.foldl_cons, ih (withDigit base n c), ih (withDigit base 0 c)]
    simp only [withDigit, List.length_cons, Nat.pow_eq, Nat.pow_succ, Nat.mul_zero, Nat.zero_add, Nat.add_mul,
      Nat.add_assoc]
    rw [Nat.mul_comm base n, Nat.mul_assoc, Nat.mul_comm base]

theorem valueByHalves_eq_foldl (base depth : Nat) (digits : List Char) :
    valueByHalves base depth digits = digits.foldl (withDigit base) 0 := by
  induction depth generalizing digits with
  | zero => rfl
  | succ depth ih =>
    simp only [valueByHalves, List.splitAt_eq, ih]
    conv => rhs; rw [← List.take_append_drop (digits.length / 2) digits, List.foldl_append]
    exact (foldl_withDigit base _ _).symm

theorem valueOf_eq_foldl (base : Nat) (digits : List Char) :
    valueOf base digits = digits.foldl (withDigit base) 0 :=
  valueByHalves_eq_foldl base _ digits

end Prefilter.Numeric
