import Attestation.EventLog.DigestStyle
import Attestation.Proofs.Text.Decimal
import Attestation.Proofs.Text.Hex

/-!
# Digests are read back

* `DigestStyle.read?` : the bytes that a digest text writes in a style;
* `decimals_eq`, `readDecimals?_decimals` : decimal values are the pieces between the blanks;
* `read?_render` : a digest is read back in the style that it was written in.
-/

namespace Attestation.DigestStyle

/-! ## Reading -/

/-- The byte whose decimal value is written. -/
def byte? (cs : List Char) : Option UInt8 := do
  let n ← Text.Decimal.read? cs
  if n < UInt8.size then some (UInt8.ofNat n) else none

/-- The bytes whose values stand there with blanks between them. -/
def readDecimals? (cs : List Char) : Option Bytes :=
  if cs = [] then some [] else (cs.splitOn ' ').mapM byte?

/-- What stands between an opening bracket at the front and a closing one at the end. -/
def bracketed? : List Char → Option (List Char)
  | '[' :: cs => if cs.getLast? = some ']' then some cs.dropLast else none
  | _ => none

def read? : DigestStyle → (text : String) → Option Bytes
  | byteArray, text => bracketed? text.toList >>= readDecimals?
  | hex, text => Text.Hex.decode? text.toList

/-! ## Decimal values -/

theorem byte?_toDigits (b : UInt8) : byte? (Nat.toDigits 10 b.toNat) = some b := by
  rw [byte?, Text.Decimal.read?_eq_some_iff.2 rfl]
  simp [b.toNat_lt]

theorem decimals_eq (bs : Bytes) : decimals bs = [' '].intercalate (bs.map fun b => Nat.toDigits 10 b.toNat) := by
  fun_induction decimals bs with
  | case1 => rfl
  | case2 b => simp
  | case3 b c bs ih => rw [ih]; simp

theorem decimals_eq_nil_iff (bs : Bytes) : decimals bs = [] ↔ bs = [] := by
  fun_cases decimals bs <;> simp [Nat.toDigits_ne_nil]

theorem readDecimals?_decimals (bs : Bytes) : readDecimals? (decimals bs) = some bs := by
  unfold readDecimals?
  split
  · next hnil => rw [(decimals_eq_nil_iff bs).1 hnil]
  · next hne =>
    have hblank : ∀ ds ∈ bs.map fun b => Nat.toDigits 10 b.toNat, ' ' ∉ ds := by
      intro ds hds hmem
      obtain ⟨b, -, rfl⟩ := List.mem_map.1 hds
      cases Text.Decimal.isDigit_toDigits hmem
    have hbytes : bs ≠ [] := mt (decimals_eq_nil_iff bs).2 hne
    have hbyte : byte? ∘ (fun b => Nat.toDigits 10 b.toNat) = fun b => pure (id b) := funext byte?_toDigits
    rw [decimals_eq, List.splitOn_intercalate ' ' hblank (by simpa using hbytes), List.mapM_map, hbyte, List.mapM_pure,
      List.map_id]
    rfl

theorem eq_blank_or_isDigit {bs : Bytes} {c : Char} (hc : c ∈ decimals bs) : c = ' ' ∨ c.isDigit = true := by
  fun_induction decimals bs with
  | case1 => cases hc
  | case2 b => exact .inr (Text.Decimal.isDigit_toDigits hc)
  | case3 b d bs ih =>
    rcases List.mem_append.1 hc with hc | hc
    · exact .inr (Text.Decimal.isDigit_toDigits hc)
    · rcases List.mem_cons.1 hc with hc | hc
      · exact .inl hc
      · exact ih hc

theorem bracketed?_brackets (cs : List Char) : bracketed? ('[' :: cs ++ [']']) = some cs := by
  rw [List.cons_append, bracketed?, if_pos (by simp), List.dropLast_concat]

/-! ## Digests -/

/-- **Digests are read back** in the style that they were written in. -/
theorem read?_render (style : DigestStyle) (digest : Bytes) : style.read? (style.render digest) = some digest := by
  cases style with
  | byteArray =>
    rw [read?, render, String.toList_ofList, characters, bracketed?_brackets]
    exact readDecimals?_decimals digest
  | hex =>
    rw [read?, render, String.toList_ofList, characters]
    exact Text.Hex.decode?_digits digest

end Attestation.DigestStyle
