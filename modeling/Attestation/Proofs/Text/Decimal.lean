import Mathlib

/-!
# Decimal digits

The digits of a natural number in base ten, besides what the standard library knows of them: there is no zero in front
of other digits, and reading further digits never lowers a number. `IsNumeral` says of a text that it is the digits of
a number, and `Decimal.read?` reads exactly such texts.
-/

namespace Attestation.Text.Decimal

theorem eq_nil_of_toDigits {n : Nat} {cs : List Char} (h : Nat.toDigits 10 n = '0' :: cs) : cs = [] := by
  induction n using Nat.strong_induction_on generalizing cs with
  | _ n ih =>
    by_cases hn : n < 10
    · rw [Nat.toDigits_of_lt_base hn] at h
      exact (List.cons.inj h).2.symm
    · rw [Nat.toDigits_of_base_le (by decide) (Nat.not_lt.1 hn)] at h
      obtain ⟨d, ds, hds⟩ := List.exists_cons_of_ne_nil (Nat.toDigits_ne_nil (n := n / 10) (b := 10))
      rw [hds, List.cons_append] at h
      obtain ⟨rfl, -⟩ := List.cons.inj h
      -- what stands in front of the last digit is a zero alone, so the number had one digit
      rw [ih (n / 10) (by omega) hds] at hds
      have hzero : n / 10 = 0 := by
        rw [← Nat.ofDigitChars_ten_toDigits (n := n / 10), hds]
        rfl
      omega

theorem le_ofDigitChars (ds : List Char) (n : Nat) : n ≤ Nat.ofDigitChars 10 ds n := by
  rw [Nat.ofDigitChars_eq_ofDigitChars_zero]
  exact Nat.le_trans (Nat.le_mul_of_pos_left n (by positivity)) (Nat.le_add_right _ _)

theorem isDigit_toDigits {n : Nat} {c : Char} (h : c ∈ Nat.toDigits 10 n) : c.isDigit = true :=
  Nat.isDigit_of_mem_toDigits (by decide) (by decide) h

theorem ne_of_isDigit {c d : Char} (hc : c.isDigit = true) (hd : d.isDigit = false) : c ≠ d := by
  rintro rfl
  rw [hd] at hc
  cases hc

/-! ## Numerals -/

/-- The decimal digits of a number, without a zero in front of others. -/
def IsNumeral (cs : List Char) : Prop := cs ≠ [] ∧ (∀ c ∈ cs, c.isDigit = true) ∧ (cs.head? = some '0' → cs = ['0'])

instance (cs : List Char) : Decidable (IsNumeral cs) :=
  inferInstanceAs (Decidable (_ ∧ _ ∧ _))

theorem isNumeral_toDigits (n : Nat) : IsNumeral (Nat.toDigits 10 n) := by
  refine ⟨Nat.toDigits_ne_nil, fun c hc => isDigit_toDigits hc, fun hhead => ?_⟩
  obtain ⟨cs, hcs⟩ := List.head?_eq_some_iff.1 hhead
  rw [hcs, eq_nil_of_toDigits hcs]

/-- A digit is the digit of its value. -/
theorem exists_of_isDigit {c : Char} (hc : c.isDigit = true) : ∃ d < 10, c = Nat.digitChar d := by
  simp only [Char.isDigit, Bool.and_eq_true, decide_eq_true_eq] at hc
  have hlow : 48 ≤ c.toNat := UInt32.le_iff_toNat_le.1 hc.1
  have hhigh : c.toNat ≤ 57 := UInt32.le_iff_toNat_le.1 hc.2
  have hself : Char.ofNat c.toNat = c := Char.ofNat_toNat c
  refine ⟨c.toNat - 48, by omega, ?_⟩
  rw [← hself]
  interval_cases c.toNat <;> rfl

/-- **Numerals are the digits of their numbers.** -/
theorem toDigits_of_isNumeral {cs : List Char} (h : IsNumeral cs) :
    Nat.toDigits 10 (Nat.ofDigitChars 10 cs 0) = cs := by
  induction cs using List.reverseRecOn with
  | nil => exact absurd rfl h.1
  | append_singleton ds c ih =>
    obtain ⟨d, hd, rfl⟩ := exists_of_isDigit (h.2.1 c (by simp))
    by_cases hds : ds = []
    · subst hds
      rw [List.nil_append, Nat.ofDigitChars_cons_digitChar_of_lt_ten hd, Nat.ofDigitChars_nil, Nat.mul_zero,
        Nat.zero_add, Nat.toDigits_of_lt_base hd]
    · -- the digits before the last are a numeral other than zero
      have hzero : ds.head? ≠ some '0' := by
        intro hhead
        have hlone := h.2.2 (by rw [List.head?_append_of_ne_nil _ hds, hhead])
        have hlength := congrArg List.length hlone
        have hpos : 0 < ds.length := List.length_pos_of_ne_nil hds
        simp only [List.length_append, List.length_singleton] at hlength
        omega
      have hdigits : Nat.toDigits 10 (Nat.ofDigitChars 10 ds 0) = ds :=
        ih ⟨hds, fun c hc => h.2.1 c (by simp [hc]), fun hhead => absurd hhead hzero⟩
      have hpos : 0 < Nat.ofDigitChars 10 ds 0 := by
        refine Nat.pos_of_ne_zero fun hvalue => ?_
        rw [hvalue, Nat.toDigits_zero] at hdigits
        exact hzero (by rw [← hdigits]; rfl)
      rw [Nat.ofDigitChars_append, Nat.ofDigitChars_cons_digitChar_of_lt_ten hd, Nat.ofDigitChars_nil,
        ← Nat.toDigits_append_toDigits (by decide) hpos hd, hdigits, Nat.toDigits_of_lt_base hd]

/-! ## Reading -/

/-- The number whose digits these are. -/
def read? (cs : List Char) : Option Nat :=
  let n := Nat.ofDigitChars 10 cs 0
  if Nat.toDigits 10 n = cs then some n else none

theorem read?_eq_some_iff {cs : List Char} {n : Nat} : read? cs = some n ↔ cs = Nat.toDigits 10 n := by
  simp only [read?]
  constructor
  · intro h
    split at h
    · next hcs => rw [← Option.some.inj h, hcs]
    · cases h
  · rintro rfl
    rw [Nat.ofDigitChars_ten_toDigits, if_pos rfl]

end Attestation.Text.Decimal
