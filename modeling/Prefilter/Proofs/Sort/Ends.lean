import Mathlib.Algebra.Group.Int.Defs
import Mathlib.Algebra.Group.Nat.Defs
import Prefilter.Sort.Bound

namespace Prefilter

open Std

theorem transCmp_comap {α β : Type} (cmp : β → β → Ordering) [TransCmp cmp] (f : α → β) :
    TransCmp fun a b => cmp (f a) (f b) where
  eq_swap := OrientedCmp.eq_swap
  isLE_trans := TransCmp.isLE_trans

namespace Text

theorem utf8_inj {a b : String} : utf8 a = utf8 b ↔ a = b := by
  rw [utf8, utf8, Array.toList_inj]
  constructor
  · intro h
    exact String.toByteArray_inj.mp (ByteArray.ext h)
  · intro h
    rw [h]

theorem compareUtf8_eq_compare (a b : String) : compareUtf8 a b = compare (utf8 a) (utf8 b) := by
  rw [compareUtf8]
  split
  · rename_i h
    rw [h]
    exact ReflCmp.compare_self.symm
  · rfl

instance : TransCmp compareUtf8 := by
  have h : compareUtf8 = fun a b => compare (utf8 a) (utf8 b) := by
    funext a b
    exact compareUtf8_eq_compare a b
  rw [h]
  exact transCmp_comap compare utf8

instance : LawfulEqCmp compareUtf8 where
  compare_self := by
    intro a
    rw [compareUtf8_eq_compare]
    exact ReflCmp.compare_self
  eq_of_compare := by
    intro a b h
    rw [compareUtf8_eq_compare, LawfulEqCmp.compare_eq_iff_eq] at h
    exact utf8_inj.mp h

theorem compare_bytes_eq_lt_iff (as bs : List UInt8) : compare as bs = .lt ↔ as < bs := by
  induction as generalizing bs with
  | nil =>
      cases bs with
      | nil => simp
      | cons b bs => simp [List.compare_nil_cons]
  | cons a as ih =>
      cases bs with
      | nil => simp [List.compare_cons_nil]
      | cons b bs =>
          rw [List.compare_cons_cons, Ordering.then_eq_lt, List.cons_lt_cons_iff, ih,
            Std.compare_eq_lt, LawfulEqCmp.compare_eq_iff_eq]

theorem compareUtf8_eq_lt_iff {a b : String} : compareUtf8 a b = .lt ↔ utf8 a < utf8 b := by
  rw [compareUtf8_eq_compare, compare_bytes_eq_lt_iff]

end Text

namespace Numeric.Binary64

/-- The total order of the standard, by the words alone: words with the sign bit come first, the
larger ones before the smaller; the others follow by size. -/
def TotallyBelow (x y : Binary64) : Prop :=
  match x.isNegative, y.isNegative with
  | true, false => True
  | false, true => False
  | false, false => x.bits < y.bits
  | true, true => y.bits < x.bits

theorem rank_cases (x : Binary64) :
    (x.isNegative = true ∧ 2 ^ 63 ≤ x.bits.toNat ∧ x.rank = 2 ^ 63 - 1 - x.bits.toNat) ∨
      (x.isNegative = false ∧ x.bits.toNat < 2 ^ 63 ∧ x.rank = x.bits.toNat) := by
  have hlt := x.bits.toNat_lt
  by_cases h : signWeight ≤ x.bits.toNat
  · refine .inl ⟨decide_eq_true h, h, ?_⟩
    simp only [rank, isNegative, h, magnitude, decide_true, if_true]
    simp only [signWeight] at h ⊢
    omega
  · refine .inr ⟨decide_eq_false h, Nat.not_le.mp h, ?_⟩
    simp only [rank, isNegative, h, magnitude, decide_false, Bool.false_eq_true, if_false]
    simp only [signWeight] at h ⊢
    omega

theorem rank_inj {x y : Binary64} : x.rank = y.rank ↔ x = y := by
  constructor
  · intro h
    have hbits : x.bits.toNat = y.bits.toNat := by
      rcases x.rank_cases with ⟨-, hx, hxr⟩ | ⟨-, hx, hxr⟩ <;>
        rcases y.rank_cases with ⟨-, hy, hyr⟩ | ⟨-, hy, hyr⟩ <;> omega
    cases x
    cases y
    exact congrArg mk (UInt64.toNat_inj.mp hbits)
  · intro h
    rw [h]

theorem totalCompare_eq_lt_iff {x y : Binary64} : x.totalCompare y = .lt ↔ x.TotallyBelow y := by
  rw [totalCompare, Std.compare_eq_lt, TotallyBelow]
  rcases x.rank_cases with ⟨hxn, hx, hxr⟩ | ⟨hxn, hx, hxr⟩ <;>
    rcases y.rank_cases with ⟨hyn, hy, hyr⟩ | ⟨hyn, hy, hyr⟩ <;>
    simp only [hxn, hyn, hxr, hyr, UInt64.lt_iff_toNat_lt, iff_true, iff_false] <;> omega

instance : TransCmp totalCompare := transCmp_comap compare rank

instance : LawfulEqCmp totalCompare where
  compare_self := ReflCmp.compare_self
  eq_of_compare h := rank_inj.mp (LawfulEqCmp.eq_of_compare h)

end Numeric.Binary64

open Numeric (Binary64)

/-- A value of the sort field. -/
inductive SortValue where
  | long (value : Int64)
  | double (value : Binary64)
  | text (value : String)

namespace SortValue

def kind : SortValue → BoundKind
  | long _ => .long
  | double _ => .double
  | text _ => .text

/-- The order of the values of each kind. -/
inductive Below : SortValue → SortValue → Prop where
  | long {a b : Int64} (h : a.toInt < b.toInt) : Below (.long a) (.long b)
  | double {a b : Binary64} (h : a.TotallyBelow b) : Below (.double a) (.double b)
  | text {a b : String} (h : Text.utf8 a < Text.utf8 b) : Below (.text a) (.text b)

/-- A total order of all values, in which those of one kind stand together. -/
def compare : SortValue → SortValue → Ordering
  | long a, long b => Ord.compare a.toInt b.toInt
  | long _, _ => .lt
  | double _, long _ => .gt
  | double a, double b => a.totalCompare b
  | double _, text _ => .lt
  | text a, text b => Text.compareUtf8 a b
  | text _, _ => .gt

instance : TransCmp compare where
  eq_swap := by
    intro a b
    cases a <;> cases b <;> simp only [compare]
    · exact OrientedCmp.eq_swap
    · rfl
    · rfl
    · rfl
    · exact OrientedCmp.eq_swap
    · rfl
    · rfl
    · rfl
    · exact OrientedCmp.eq_swap
  isLE_trans := by
    intro a b c
    cases a <;> cases b <;> cases c <;> simp only [compare]
    case long.long.long => exact TransCmp.isLE_trans
    case double.double.double => exact TransCmp.isLE_trans
    case text.text.text => exact TransCmp.isLE_trans
    all_goals simp

instance : LawfulEqCmp compare where
  compare_self := by
    intro a
    cases a <;> exact ReflCmp.compare_self
  eq_of_compare := by
    intro a b h
    cases a <;> cases b <;> simp only [compare, reduceCtorEq] at h
    · exact congrArg long (Int64.toInt_inj.mp (LawfulEqCmp.eq_of_compare h))
    · exact congrArg double (LawfulEqCmp.eq_of_compare h)
    · exact congrArg text (LawfulEqCmp.eq_of_compare h)

theorem compare_eq_eq_iff {a b : SortValue} : compare a b = .eq ↔ a = b :=
  LawfulEqCmp.compare_eq_iff_eq

theorem compare_eq_lt_iff {a b : SortValue} (same : a.kind = b.kind) :
    compare a b = .lt ↔ Below a b := by
  constructor
  · intro h
    cases a <;> cases b <;> simp only [compare, kind, reduceCtorEq] at h same
    · exact .long (Std.compare_eq_lt.mp h)
    · exact .double (Numeric.Binary64.totalCompare_eq_lt_iff.mp h)
    · exact .text (Text.compareUtf8_eq_lt_iff.mp h)
  · intro h
    cases h with
    | long h => exact Std.compare_eq_lt.mpr h
    | double h => exact Numeric.Binary64.totalCompare_eq_lt_iff.mpr h
    | text h => exact Text.compareUtf8_eq_lt_iff.mpr h

end SortValue

namespace Bound

def least : Bound → SortValue
  | long a _ => .long a
  | double a _ => .double a
  | text a _ => .text a

def greatest : Bound → SortValue
  | long _ b => .long b
  | double _ b => .double b
  | text _ b => .text b

theorem kind_least (b : Bound) : b.least.kind = b.kind := by cases b <;> rfl

theorem kind_greatest (b : Bound) : b.greatest.kind = b.kind := by cases b <;> rfl

/-- The shard with one bound is visited before that with another: the smaller least value leads, or
the larger greatest one. -/
def Leads (order : SortOrder) (a b : Bound) : Prop :=
  match order with
  | .ascending => a.least.Below b.least
  | .descending => b.greatest.Below a.greatest

/-- The ends that decide are the same. -/
def Ties (order : SortOrder) (a b : Bound) : Prop :=
  match order with
  | .ascending => a.least = b.least
  | .descending => a.greatest = b.greatest

/-- Bounds by the ends that decide, also where the kinds differ. -/
def compareEnds (order : SortOrder) (a b : Bound) : Ordering :=
  match order with
  | .ascending => a.least.compare b.least
  | .descending => b.greatest.compare a.greatest

theorem compare?_eq_compareEnds {order : SortOrder} {a b : Bound} (same : a.kind = b.kind) :
    compare? order a b = some (compareEnds order a b) := by
  cases order <;> cases a <;> cases b <;> simp only [kind, reduceCtorEq] at same <;> rfl

instance (order : SortOrder) : TransCmp (compareEnds order) := by
  cases order with
  | ascending => exact transCmp_comap SortValue.compare least
  | descending =>
      have h : compareEnds .descending = fun a b => SortValue.compare b.greatest a.greatest := rfl
      rw [h]
      exact {
        eq_swap := OrientedCmp.eq_swap
        isLE_trans := fun hab hbc => TransCmp.isLE_trans hbc hab }

theorem compareEnds_eq_lt_iff {order : SortOrder} {a b : Bound} (same : a.kind = b.kind) :
    compareEnds order a b = .lt ↔ Leads order a b := by
  cases order with
  | ascending =>
      apply SortValue.compare_eq_lt_iff
      rw [kind_least, kind_least, same]
  | descending =>
      apply SortValue.compare_eq_lt_iff
      rw [kind_greatest, kind_greatest, same]

theorem compareEnds_eq_eq_iff {order : SortOrder} {a b : Bound} :
    compareEnds order a b = .eq ↔ Ties order a b := by
  cases order with
  | ascending => exact SortValue.compare_eq_eq_iff
  | descending => exact SortValue.compare_eq_eq_iff.trans eq_comm

end Bound
end Prefilter
