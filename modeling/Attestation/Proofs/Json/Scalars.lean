import Attestation.Json.Printer
import Attestation.Json.Reader
import Attestation.Proofs.Text.Decimal

/-!
# Numbers of JSON, and strings without escapes

* `readNumber_toDigits` : the digits of a number that fits into 64 bits are read back, in front of anything that does not
  go on with it;
* `Plain`, `Unescaped` : a character that stands in a string as it is, and a string in which nothing has to be escaped.
-/

namespace Attestation.Json

/-! ## Numbers -/

/-- A number that stands before `rest` ends there. -/
def Ends (rest : List Char) : Prop := ∀ c ∈ rest.head?, c.isDigit = false ∧ c ≠ '.' ∧ c ≠ 'e' ∧ c ≠ 'E'

theorem ends_nil : Ends [] := by
  intro c hc
  cases hc

theorem ends_cons {c : Char} (hc : c = ',' ∨ c = ']' ∨ c = '}') (rest : List Char) : Ends (c :: rest) := by
  intro d hd
  cases hd
  rcases hc with rfl | rfl | rfl <;> decide

theorem gather_eq {ds : List Char} {s : Nat} (k : Nat) (h : Nat.ofDigitChars 10 ds s ≤ maxSignificand) :
    gather s k ds = ⟨Nat.ofDigitChars 10 ds s, k + ds.length, 0⟩ := by
  induction ds generalizing s k with
  | nil => rfl
  | cons c ds ih =>
    rw [Nat.ofDigitChars_cons, show '0'.toNat = 48 from rfl] at h ⊢
    have hnext : 10 * s + (c.toNat - 48) ≤ maxSignificand := Nat.le_trans (Text.Decimal.le_ofDigitChars ds _) h
    simp only [gather, if_neg (Nat.not_lt.2 hnext)]
    rw [ih (k + 1) h, List.length_cons, Nat.add_assoc, Nat.add_comm 1]

theorem spanDigits_append {ds rest : List Char} (hds : ∀ c ∈ ds, c.isDigit = true) (hrest : Ends rest) :
    spanDigits (ds ++ rest) = (ds, rest) := by
  have htake : rest.takeWhile Char.isDigit = [] ∧ rest.dropWhile Char.isDigit = rest := by
    cases rest with
    | nil => exact ⟨rfl, rfl⟩
    | cons c cs => simp [(hrest c rfl).1]
  rw [spanDigits, List.takeWhile_append_of_pos hds, List.dropWhile_append_of_pos hds, htake.1, htake.2,
    List.append_nil]

/-- What follows a whole number is left alone. -/
theorem readTail_ends {g : Gathered} (hg : g.dropped = 0) {rest : List Char} (hrest : Ends rest) :
    readTail false g rest = some (.ofNat g.significand, rest) := by
  unfold readTail
  split
  · next cs => exact absurd rfl (hrest '.' rfl).2.1
  · simp only
    split
    · exact absurd rfl (hrest 'e' rfl).2.2.1
    · exact absurd rfl (hrest 'E' rfl).2.2.2
    · rw [hg]
      rfl

/-- **Numbers are read back**, if they fit into 64 bits. -/
theorem readNumber_toDigits {n : Nat} (hn : n ≤ maxSignificand) {rest : List Char} (hrest : Ends rest) :
    readNumber (Nat.toDigits 10 n ++ rest) = some (.ofNat n, rest) := by
  have hspan : spanDigits (Nat.toDigits 10 n ++ rest) = (Nat.toDigits 10 n, rest) :=
    spanDigits_append (fun c => Text.Decimal.isDigit_toDigits) hrest
  have hgather : gather 0 0 (Nat.toDigits 10 n) = ⟨n, (Nat.toDigits 10 n).length, 0⟩ := by
    rw [gather_eq 0 (by rwa [Nat.ofDigitChars_ten_toDigits]), Nat.ofDigitChars_ten_toDigits, Nat.zero_add]
  unfold readNumber
  split
  next negative cs hsign =>
  have hunsigned : negative = false ∧ cs = Nat.toDigits 10 n ++ rest := by
    split at hsign
    · next tail hminus =>
      obtain ⟨d, ds, hds⟩ := List.exists_cons_of_ne_nil (Nat.toDigits_ne_nil (n := n) (b := 10))
      rw [hds, List.cons_append] at hminus
      obtain ⟨rfl, -⟩ := List.cons.inj hminus
      have hdigit := Text.Decimal.isDigit_toDigits (n := n) (c := '-') (by simp [hds])
      cases hdigit
    · cases hsign
      exact ⟨rfl, rfl⟩
  obtain ⟨rfl, rfl⟩ := hunsigned
  rw [hspan]
  split
  · next hnil => exact absurd (congrArg Prod.fst hnil) Nat.toDigits_ne_nil
  · next c cs tail hzero =>
    have hlone := Text.Decimal.eq_nil_of_toDigits (congrArg Prod.fst hzero)
    cases hlone
  · next ds tail _ _ heq =>
    cases heq
    rw [hgather]
    exact readTail_ends rfl hrest

/-! ## Strings -/

/-- The character stands in a string as it is: it is no quote, no backslash and no control character. -/
def Plain (c : Char) : Prop := c ≠ '"' ∧ c ≠ '\\' ∧ 32 ≤ c.toNat

instance (c : Char) : Decidable (Plain c) :=
  inferInstanceAs (Decidable (_ ∧ _ ∧ _))

/-- No character of the string has to be escaped. -/
def Unescaped (s : String) : Prop := ∀ c ∈ s.toList, Plain c

instance (s : String) : Decidable (Unescaped s) :=
  inferInstanceAs (Decidable (∀ c ∈ s.toList, Plain c))

theorem plain_of_isDigit {c : Char} (h : c.isDigit = true) : Plain c := by
  refine ⟨Text.Decimal.ne_of_isDigit h rfl, Text.Decimal.ne_of_isDigit h rfl, ?_⟩
  simp only [Char.isDigit, Bool.and_eq_true, decide_eq_true_eq] at h
  exact Nat.le_trans (by decide) (UInt32.le_iff_toNat_le.1 h.1)

theorem escapeChar_of_plain {c : Char} (h : Plain c) : escapeChar c = [c] := by
  obtain ⟨hquote, hslash, hcontrol⟩ := h
  have hne (d : Char) (hd : d.toNat < 32) : c ≠ d := by
    rintro rfl
    omega
  rw [escapeChar, if_neg hquote, if_neg hslash, if_neg (hne _ (by decide)), if_neg (hne _ (by decide)),
    if_neg (hne _ (by decide)), if_neg (hne _ (by decide)), if_neg (hne _ (by decide)), if_neg (Nat.not_lt.2 hcontrol)]

/-- Such a string stands between its quotes as it is. -/
theorem quoted_of_unescaped {s : String} (h : Unescaped s) : quoted s = '"' :: s.toList ++ ['"'] := by
  have hself : s.toList.flatMap escapeChar = s.toList := by
    rw [List.flatMap_def, List.map_congr_left fun c hc => escapeChar_of_plain (h c hc)]
    exact List.flatMap_singleton' _
  rw [quoted, hself]

end Attestation.Json
