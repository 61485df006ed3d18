import Mathlib
import Attestation.Text.Hex

/-!
# Hexadecimal text is read back

* `decode?_digits` : the digits of a byte string are read back, by pairs;
* `LowerDigits` : an even number of lowercase digits, which are those of a byte string by `exists_digits_iff`.
-/

namespace Attestation.Text.Hex

theorem digitValue?_digitChar : ∀ n < 16, digitValue? (Nat.digitChar n) = some n := by decide

theorem exists_of_mem_digits {bs : Bytes} {c : Char} (hc : c ∈ digits bs) : ∃ n < 16, c = Nat.digitChar n := by
  obtain ⟨b, -, hb⟩ := List.mem_flatMap.1 hc
  have hlt := b.toNat_lt
  simp only [byteDigits, List.mem_cons, List.not_mem_nil, or_false] at hb
  rcases hb with rfl | rfl
  · exact ⟨b.toNat / 16, by omega, rfl⟩
  · exact ⟨b.toNat % 16, by omega, rfl⟩

theorem decodeOnto_digits (acc bs : Bytes) : decodeOnto acc (digits bs) = some (acc.reverse ++ bs) := by
  induction bs generalizing acc with
  | nil => simp [digits, decodeOnto]
  | cons b bs ih =>
    have hlt := b.toNat_lt
    have hbyte : UInt8.ofNat (16 * (b.toNat / 16) + b.toNat % 16) = b := by
      rw [Nat.div_add_mod, UInt8.ofNat_toNat]
    rw [digits, List.flatMap_cons, ← digits, byteDigits]
    simp only [List.cons_append, List.nil_append, decodeOnto, digitValue?_digitChar (b.toNat / 16) (by omega),
      digitValue?_digitChar (b.toNat % 16) (by omega), hbyte, ih, List.reverse_cons, List.append_assoc]

/-- **What is written in hexadecimal digits is read back.** -/
theorem decode?_digits (bs : Bytes) : decode? (digits bs) = some bs := decodeOnto_digits [] bs

/-! ## Lowercase digits -/

/-- A hexadecimal digit that is written: a decimal digit or a lowercase letter. -/
def IsLowerDigit (c : Char) : Prop := '0' ≤ c ∧ c ≤ '9' ∨ 'a' ≤ c ∧ c ≤ 'f'

instance (c : Char) : Decidable (IsLowerDigit c) :=
  inferInstanceAs (Decidable (_ ∨ _))

/-- Lowercase digits in pairs. -/
def LowerDigits (cs : List Char) : Prop := 2 ∣ cs.length ∧ ∀ c ∈ cs, IsLowerDigit c

instance (cs : List Char) : Decidable (LowerDigits cs) :=
  inferInstanceAs (Decidable (_ ∧ _))

theorem isLowerDigit_digitChar : ∀ n < 16, IsLowerDigit (Nat.digitChar n) := by decide

/-- A digit that is written is the digit of its value. -/
theorem exists_of_isLowerDigit {c : Char} (hc : IsLowerDigit c) : ∃ n < 16, c = Nat.digitChar n := by
  have hself : Char.ofNat c.toNat = c := Char.ofNat_toNat c
  rcases hc with ⟨hlow, hhigh⟩ | ⟨hlow, hhigh⟩
  · have hlow : 48 ≤ c.toNat := UInt32.le_iff_toNat_le.1 hlow
    have hhigh : c.toNat ≤ 57 := UInt32.le_iff_toNat_le.1 hhigh
    refine ⟨c.toNat - 48, by omega, ?_⟩
    rw [← hself]
    interval_cases c.toNat <;> rfl
  · have hlow : 97 ≤ c.toNat := UInt32.le_iff_toNat_le.1 hlow
    have hhigh : c.toNat ≤ 102 := UInt32.le_iff_toNat_le.1 hhigh
    refine ⟨c.toNat - 87, by omega, ?_⟩
    rw [← hself]
    interval_cases c.toNat <;> rfl

theorem lowerDigits_digits (bs : Bytes) : LowerDigits (digits bs) := by
  constructor
  · exact ⟨bs.length, length_digits bs⟩
  · intro c hc
    obtain ⟨n, hn, rfl⟩ := exists_of_mem_digits hc
    exact isLowerDigit_digitChar n hn

/-- Two digits are those of one byte. -/
theorem byteDigits_of_lt {m n : Nat} (hm : m < 16) (hn : n < 16) :
    byteDigits (UInt8.ofNat (16 * m + n)) = [Nat.digitChar m, Nat.digitChar n] := by
  have hvalue : (UInt8.ofNat (16 * m + n)).toNat = 16 * m + n := by
    rw [UInt8.toNat_ofNat']
    omega
  have hhigh : (16 * m + n) / 16 = m := by omega
  have hlow : (16 * m + n) % 16 = n := by omega
  rw [byteDigits, hvalue, hhigh, hlow]

/-- **Lowercase digits in pairs are the digits of a byte string**, and nothing else is. -/
theorem exists_digits_iff {cs : List Char} : (∃ bs, digits bs = cs) ↔ LowerDigits cs := by
  constructor
  · rintro ⟨bs, rfl⟩
    exact lowerDigits_digits bs
  · intro h
    -- by pairs, as the digits were written
    induction cs using List.twoStepInduction with
    | nil => exact ⟨[], rfl⟩
    | singleton c => exact absurd h.1 (by simp)
    | cons_cons c d cs ih =>
      obtain ⟨heven, hdigits⟩ := h
      obtain ⟨m, hm, rfl⟩ := exists_of_isLowerDigit (hdigits c (by simp))
      obtain ⟨n, hn, rfl⟩ := exists_of_isLowerDigit (hdigits d (by simp))
      have hrest : 2 ∣ cs.length := by
        simp only [List.length_cons] at heven
        omega
      obtain ⟨bs, rfl⟩ := ih ⟨hrest, fun c hc => hdigits c (by simp [hc])⟩
      refine ⟨UInt8.ofNat (16 * m + n) :: bs, ?_⟩
      rw [digits, List.flatMap_cons, byteDigits_of_lt hm hn]
      rfl

end Attestation.Text.Hex
