import Mathlib.Data.List.Basic
import Prefilter.Toml.Document

namespace Prefilter.Toml

open Numeric (digitValue? valueOf withDigit)

/-- There is no more on the line. -/
def LineEnds (cs : List Char) : Prop := ∀ c ∈ cs.head?, c = '\n'

/-- Digits of a number without leading zeros. -/
structure IsNumeral (ds : List Char) : Prop where
  digits : ∀ c ∈ ds, c.isDigit
  ne_nil : ds ≠ []
  lead : ds.head? = some '0' → ds = ['0']

theorem isNumeral_toDigits (n : Nat) : IsNumeral (Nat.toDigits 10 n) where
  digits c mem := Nat.isDigit_of_mem_toDigits (by decide) (by decide) mem
  ne_nil := Nat.toDigits_ne_nil
  lead h := by
    induction n using Nat.strongRecOn with
    | ind n ih =>
        by_cases hlt : n < 10
        · rw [Nat.toDigits_of_lt_base hlt] at h ⊢
          rw [Option.some.inj h]
        · have hle : 10 ≤ n := by omega
          have hhead : (Nat.toDigits 10 (n / 10)).head? = some '0' := by
            rw [Nat.toDigits_of_base_le (by decide) hle, List.head?_append] at h
            cases hdigits : Nat.toDigits 10 (n / 10) with
            | nil => exact absurd hdigits Nat.toDigits_ne_nil
            | cons c ds => simpa [hdigits] using h
          -- The digits before the last one would be a zero.
          have hzero := ih (n / 10) (by omega) hhead
          have hvalue : n / 10 = Nat.ofDigitChars 10 (Nat.toDigits 10 (n / 10)) 0 :=
            (Nat.ofDigitChars_toDigits (by decide) (by decide)).symm
          rw [hzero] at hvalue
          have hlast : n / 10 = 0 := hvalue
          omega

theorem digitValue?_of_isDigit {c : Char} (h : c.isDigit) :
    digitValue? c = some (c.toNat - '0'.toNat) := by
  rw [Char.isDigit, Bool.and_eq_true, decide_eq_true_eq, decide_eq_true_eq] at h
  exact if_pos h

theorem valueOf_toDigits (n : Nat) : valueOf 10 (Nat.toDigits 10 n) = n := by
  rw [Numeric.valueOf_eq_foldl]
  refine Eq.trans ?_ (Nat.ofDigitChars_toDigits (by decide : 1 < 10) (by decide))
  rw [Nat.ofDigitChars_eq_foldl]
  refine List.foldl_ext _ _ _ fun m c mem => ?_
  rw [withDigit, digitValue?_of_isDigit ((isNumeral_toDigits n).digits c mem), Option.getD_some]

variable {ds rest : List Char}

theorem moreDigits_append (digits : ∀ c ∈ ds, c.isDigit) (ends : LineEnds rest) :
    moreDigits Char.isDigit (ds ++ rest) = (ds, rest) := by
  induction ds with
  | nil =>
      cases rest with
      | nil => rfl
      | cons c rest =>
          obtain rfl := ends c rfl
          rw [List.nil_append, moreDigits.eq_def]
          rfl
  | cons c ds ih =>
      obtain ⟨hc, hds⟩ := List.forall_mem_cons.mp digits
      rw [List.cons_append, moreDigits.eq_def]
      split
      · contradiction
      · rename_i heq
        obtain ⟨rfl, -⟩ := List.cons.inj heq
        exact absurd hc (by decide)
      · rename_i heq
        obtain ⟨rfl, rfl⟩ := List.cons.inj heq
        rw [if_pos hc, ih hds]

theorem eq_drop_of_fixedDigits {count least greatest n : Nat} {cs : List Char} (ends : LineEnds rest)
    (read : fixedDigits count least greatest (ds ++ rest) = some (n, cs)) :
    cs = ds.drop count ++ rest := by
  rw [fixedDigits] at read
  split at read
  · rename_i htaken
    obtain ⟨hlength, hdigits, -⟩ := htaken
    obtain ⟨-, rfl⟩ := Prod.mk.inj (Option.some.inj read)
    suffices count ≤ ds.length by rw [List.drop_append_of_le_length this]
    by_contra hlt
    have hlt := Nat.lt_of_not_le hlt
    cases rest with
    | nil => simp at hlength; omega
    | cons c rest =>
        obtain rfl := ends c rfl
        have hmem : '\n' ∈ (ds ++ '\n' :: rest).take count := by
          refine List.mem_of_getElem? (i := ds.length) ?_
          rw [List.getElem?_take_of_lt hlt]
          simp
        exact absurd (List.all_eq_true.mp hdigits _ hmem) (by decide)
  · cases read

namespace IsNumeral

variable (h : IsNumeral ds) (ends : LineEnds rest)

include h

theorem exists_cons : ∃ c tail, ds = c :: tail ∧ c.isDigit := by
  cases ds with
  | nil => exact absurd rfl h.ne_nil
  | cons c tail => exact ⟨c, tail, rfl, h.digits c List.mem_cons_self⟩

theorem sign_append : sign (ds ++ rest) = (false, ds ++ rest) := by
  obtain ⟨c, tail, rfl, hc⟩ := h.exists_cons
  rw [List.cons_append, sign.eq_def]
  split
  · rename_i heq
    cases heq
    exact absurd hc (by decide)
  · rename_i heq
    cases heq
    exact absurd hc (by decide)
  · rfl

include ends

theorem literal?_eq_none {c : Char} (digit : ¬ c.isDigit) (newline : c ≠ '\n') (count : Nat) :
    literal? c (ds.drop count ++ rest) = none := by
  cases hcs : ds.drop count ++ rest with
  | nil => rfl
  | cons d cs =>
      refine if_neg ?_
      rintro rfl
      cases htail : ds.drop count with
      | nil =>
          rw [htail, List.nil_append] at hcs
          exact newline (ends d (by rw [hcs]; rfl))
      | cons e tail =>
          rw [htail, List.cons_append] at hcs
          obtain ⟨rfl, -⟩ := List.cons.inj hcs
          exact digit (h.digits e (List.mem_of_mem_drop (htail ▸ List.mem_cons_self)))

theorem datetime?_eq_none : datetime? (ds ++ rest) = none := by
  have hdate : date? (ds ++ rest) = none := by
    rw [date?]
    cases hyear : fixedDigits 4 0 9999 (ds ++ rest) with
    | none => rfl
    | some year =>
        obtain ⟨year, cs⟩ := year
        obtain rfl := eq_drop_of_fixedDigits ends hyear
        simp [h.literal?_eq_none ends (c := '-') (by decide) (by decide)]
  have htime : time? (ds ++ rest) = none := by
    rw [time?]
    cases hhour : fixedDigits 2 0 23 (ds ++ rest) with
    | none => rfl
    | some hour =>
        obtain ⟨hour, cs⟩ := hour
        obtain rfl := eq_drop_of_fixedDigits ends hhour
        simp [h.literal?_eq_none ends (c := ':') (by decide) (by decide)]
  rw [datetime?, hdate, htime]
  rfl

theorem decimalDigits_append : decimalDigits (ds ++ rest) = some (ds, rest) := by
  obtain ⟨c, tail, rfl, hc⟩ := h.exists_cons
  rw [List.cons_append, decimalDigits.eq_def]
  split
  · rename_i heq
    cases heq
    obtain ⟨-, rfl⟩ := List.cons.inj (h.lead rfl)
    rfl
  · rw [digits1, if_pos hc, moreDigits_append (List.forall_mem_cons.mp h.digits).2 ends]

theorem float?_eq_none : float? (ds ++ rest) = none := by
  have hfraction : fraction? rest = none := by
    rw [fraction?.eq_def]
    split
    · exact absurd (ends '.' rfl) (by decide)
    · rfl
  have hexponent : exponent? rest = none := by
    rw [exponent?.eq_def]
    split
    · rename_i c _
      obtain rfl := ends c rfl
      rfl
    · rfl
  rw [float?, h.sign_append]
  simp only [h.decimalDigits_append ends, hfraction, hexponent]

theorem integer?_append :
    integer? (ds ++ rest) = (inRange? (valueOf 10 ds)).map (·, rest) := by
  -- A base mark would stand behind a lone zero, where the line ends.
  have hbased {c : Char} {cs : List Char} (newline : c ≠ '\n') (heq : ds ++ rest = '0' :: c :: cs) :
      False := by
    obtain ⟨d, tail, rfl, -⟩ := h.exists_cons
    obtain ⟨rfl, htail⟩ := List.cons.inj heq
    obtain ⟨-, rfl⟩ := List.cons.inj (h.lead rfl)
    obtain rfl : rest = c :: cs := htail
    exact newline (ends c rfl)
  rw [integer?.eq_def]
  split
  · rename_i heq
    exact (hbased (by decide) heq).elim
  · rename_i heq
    exact (hbased (by decide) heq).elim
  · rename_i heq
    exact (hbased (by decide) heq).elim
  · simp only [h.sign_append, h.decimalDigits_append ends, Bool.false_eq_true, if_false]

theorem scalar_append : scalar (ds ++ rest) = (inRange? (valueOf 10 ds)).map (·, rest) := by
  have hnumber : number (ds ++ rest) = (inRange? (valueOf 10 ds)).map (·, rest) := by
    rw [number, h.datetime?_eq_none ends, h.float?_eq_none ends, h.integer?_append ends,
      Option.none_or, Option.none_or]
  obtain ⟨c, tail, rfl, hc⟩ := h.exists_cons
  have hquote : c ≠ literalQuote := by
    rintro rfl
    exact absurd hc (by decide)
  rw [← hnumber, List.cons_append, scalar.eq_def]
  -- None of the characters that other values start with is a digit.
  split <;> rename_i heq
  · exact absurd ((List.cons.inj heq).1 ▸ hc) (by decide)
  · exact absurd ((List.cons.inj heq).1 ▸ hc) (by decide)
  · exact absurd ((List.cons.inj heq).1 ▸ hc) (by decide)
  · exact absurd ((List.cons.inj heq).1 ▸ hc) (by decide)
  · obtain ⟨rfl, rfl⟩ := List.cons.inj heq
    rw [if_neg hquote, if_pos (.inl hc)]
  · cases heq

end IsNumeral

end Prefilter.Toml
