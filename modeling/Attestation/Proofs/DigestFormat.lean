import Attestation.Proofs.DigestStyle

/-!
# Which texts are digests

* `InFormat` : the texts of a style, whoever wrote them: numerals up to 255 with single blanks between them, in brackets,
  or lowercase digits in pairs;
* `inFormat_iff` : these are the texts that some byte string has in the style;
* `render_exact` : a digest has one text in each style, and each text of a style is that of one byte string.
-/

namespace Attestation.DigestStyle
open Text.Decimal (IsNumeral)
open Text.Hex (LowerDigits)

/-- The text has the format of the style, and its numbers are bytes. -/
def InFormat : DigestStyle → List Char → Prop
  | byteArray, cs => ∃ numerals : List (List Char), cs = '[' :: [' '].intercalate numerals ++ [']'] ∧
      ∀ ds ∈ numerals, IsNumeral ds ∧ Nat.ofDigitChars 10 ds 0 ≤ 255
  | hex, cs => LowerDigits cs

theorem toList_render (style : DigestStyle) (digest : Bytes) :
    (style.render digest).toList = style.characters digest := String.toList_ofList

theorem toList_render_byteArray (digest : Bytes) :
    (byteArray.render digest).toList =
      '[' :: [' '].intercalate (digest.map fun b => Nat.toDigits 10 b.toNat) ++ [']'] := by
  rw [toList_render, characters, decimals_eq]

theorem inFormat_render (style : DigestStyle) (digest : Bytes) : style.InFormat (style.render digest).toList := by
  cases style with
  | byteArray =>
    refine ⟨_, toList_render_byteArray digest, fun ds hds => ?_⟩
    obtain ⟨b, -, rfl⟩ := List.mem_map.1 hds
    rw [Nat.ofDigitChars_ten_toDigits]
    exact ⟨Text.Decimal.isNumeral_toDigits b.toNat, Nat.le_of_lt_succ b.toNat_lt⟩
  | hex =>
    rw [toList_render]
    exact Text.Hex.lowerDigits_digits digest

/-- Numerals up to 255 are the decimal values of bytes. -/
theorem exists_decimals {numerals : List (List Char)}
    (h : ∀ ds ∈ numerals, IsNumeral ds ∧ Nat.ofDigitChars 10 ds 0 ≤ 255) :
    ∃ digest : Bytes, (digest.map fun b => Nat.toDigits 10 b.toNat) = numerals := by
  induction numerals with
  | nil => exact ⟨[], rfl⟩
  | cons ds numerals ih =>
    obtain ⟨digest, rfl⟩ := ih fun es hes => h es (List.mem_cons_of_mem ds hes)
    obtain ⟨hnumeral, hbyte⟩ := h ds List.mem_cons_self
    have hvalue : (UInt8.ofNat (Nat.ofDigitChars 10 ds 0)).toNat = Nat.ofDigitChars 10 ds 0 :=
      UInt8.toNat_ofNat_of_lt' (Nat.lt_succ_of_le hbyte)
    refine ⟨UInt8.ofNat (Nat.ofDigitChars 10 ds 0) :: digest, ?_⟩
    rw [List.map_cons, hvalue, Text.Decimal.toDigits_of_isNumeral hnumeral]

/-- **The texts in the format of a style are those of byte strings.** -/
theorem inFormat_iff {style : DigestStyle} {text : String} :
    style.InFormat text.toList ↔ ∃ digest, style.render digest = text := by
  constructor
  · intro h
    have hcharacters : ∃ digest, style.characters digest = text.toList := by
      cases style with
      | byteArray =>
        obtain ⟨numerals, htext, hnumerals⟩ := h
        obtain ⟨digest, rfl⟩ := exists_decimals hnumerals
        exact ⟨digest, by rw [htext, characters, decimals_eq]⟩
      | hex => exact Text.Hex.exists_digits_iff.2 h
    obtain ⟨digest, hdigest⟩ := hcharacters
    exact ⟨digest, by rw [render, hdigest, String.ofList_toList]⟩
  · rintro ⟨digest, rfl⟩
    exact inFormat_render style digest

theorem render_injective (style : DigestStyle) : Function.Injective style.render := by
  intro digest other h
  have hread := read?_render style digest
  rw [h, read?_render] at hread
  exact (Option.some.inj hread).symm

/-- No text is in both formats: a bracket is no digit. -/
theorem not_inFormat_both {cs : List Char} (hbytes : byteArray.InFormat cs) : ¬hex.InFormat cs := by
  obtain ⟨numerals, rfl, -⟩ := hbytes
  rintro ⟨-, hdigits⟩
  exact absurd (hdigits '[' (by simp)) (by decide)

/-- **Each style writes byte strings one to one.** A digest is written as its decimal values in brackets, or in two
lowercase digits for each byte, and read back from either. A text in the format of a style is that of exactly one byte
string, which is what is read from it. No text is that of a byte string in both styles. -/
theorem render_exact :
    (∀ digest : Bytes, ∃ numerals : List (List Char),
      (byteArray.render digest).toList = '[' :: [' '].intercalate numerals ++ [']'] ∧
        (∀ ds ∈ numerals, IsNumeral ds) ∧
        numerals.map (fun ds => Nat.ofDigitChars 10 ds 0) = digest.map UInt8.toNat) ∧
    (∀ digest : Bytes, (hex.render digest).toList.length = 2 * digest.length ∧
      ∀ c ∈ (hex.render digest).toList, Text.Hex.IsLowerDigit c) ∧
    (∀ (style : DigestStyle) (digest : Bytes), style.read? (style.render digest) = some digest) ∧
    (∀ (style : DigestStyle) (text : String), style.InFormat text.toList →
      (∃! digest, style.render digest = text) ∧ ∃ digest, style.read? text = some digest ∧ style.render digest = text) ∧
    ∀ digest other : Bytes, byteArray.render digest ≠ hex.render other := by
  refine ⟨fun digest => ?_, fun digest => ?_, read?_render, fun style text htext => ?_, fun digest other heq => ?_⟩
  · refine ⟨_, toList_render_byteArray digest, fun ds hds => ?_, ?_⟩
    · obtain ⟨b, -, rfl⟩ := List.mem_map.1 hds
      exact Text.Decimal.isNumeral_toDigits b.toNat
    · rw [List.map_map]
      exact List.map_congr_left fun b _ => Nat.ofDigitChars_ten_toDigits
  · rw [toList_render]
    exact ⟨Text.Hex.length_digits digest, (Text.Hex.lowerDigits_digits digest).2⟩
  · obtain ⟨digest, rfl⟩ := inFormat_iff.1 htext
    exact ⟨⟨digest, rfl, fun other hother => style.render_injective hother⟩, digest, read?_render style digest, rfl⟩
  · have hboth := inFormat_render byteArray digest
    rw [heq] at hboth
    exact not_inFormat_both hboth (inFormat_render hex other)

/-- Where the blank stands tells 1 and 23 from 12 and 3, and the digest without bytes has a text of its own in each
style. -/
theorem render_exact_sample :
    byteArray.InFormat "[1 23]".toList ∧ (∃! digest, byteArray.render digest = "[1 23]") ∧
      byteArray.render [1, 23] = "[1 23]" ∧ byteArray.render [12, 3] ≠ "[1 23]" ∧
      hex.InFormat "".toList ∧ (∃! digest, hex.render digest = "") ∧ byteArray.render [] ≠ hex.render [] := by
  obtain ⟨-, -, -, hformat, hboth⟩ := render_exact
  have hblank : byteArray.InFormat "[1 23]".toList :=
    ⟨[['1'], ['2', '3']], by decide, by simp [IsNumeral, Nat.ofDigitChars_cons]⟩
  have hempty : hex.InFormat "".toList := by simp [InFormat, LowerDigits]
  have hrender : byteArray.render [1, 23] = "[1 23]" := by decide
  obtain ⟨hunique, -⟩ := hformat byteArray "[1 23]" hblank
  refine ⟨hblank, hunique, hrender, fun hother => ?_, hempty, (hformat hex "" hempty).1, hboth [] []⟩
  cases hunique.unique hrender hother

end Attestation.DigestStyle
