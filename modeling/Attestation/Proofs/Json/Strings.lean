import Attestation.Proofs.Json.Scalars
import Attestation.Proofs.Text.Hex

/-!
# The ways to write a string in JSON

* `SpellsChar c cs` : the character `c` may be written as `cs`: as it is, by a letter behind a backslash, by its four
  hexadecimal digits, or by two surrogates;
* `SpellsString s cs` : the string `s` may be written as `cs`, quotes included, each of its characters in any way;
* `readString_of_spells` : whichever way is taken, the string is read;
* `spellsString_quoted` : the printer takes one of them.
-/

namespace Attestation.Json

/-! ## Characters -/

/-- Four hexadecimal digits, of either case, and the number that they write. -/
inductive HexUnit : Nat → List Char → Prop where
  | digits {a b c d : Char} {i j k l : Nat} (ha : Text.Hex.digitValue? a = some i)
      (hb : Text.Hex.digitValue? b = some j) (hc : Text.Hex.digitValue? c = some k)
      (hd : Text.Hex.digitValue? d = some l) :
      HexUnit (((i * 16 + j) * 16 + k) * 16 + l) [a, b, c, d]

/-- The letters that may stand behind a backslash, each with the character that it stands for. -/
def letterEscapes : List (Char × Char) :=
  [('"', '"'), ('\\', '\\'), ('/', '/'), ('b', '\x08'), ('f', '\x0c'), ('n', '\n'), ('r', '\r'), ('t', '\t')]

/-- The ways to write a character in a string. -/
inductive SpellsChar : Char → List Char → Prop where
  | plain {c : Char} (h : Plain c) : SpellsChar c [c]
  | letter {letter c : Char} (h : (letter, c) ∈ letterEscapes) : SpellsChar c ['\\', letter]
  | unit {c : Char} {ds : List Char} (h : HexUnit c.toNat ds) : SpellsChar c ('\\' :: 'u' :: ds)
  | pair {c : Char} {ds es : List Char} {high low : Nat} (hds : HexUnit high ds) (hes : HexUnit low es)
      (hhigh : 0xD800 ≤ high ∧ high ≤ 0xDBFF) (hlow : 0xDC00 ≤ low ∧ low ≤ 0xDFFF)
      (hc : c.toNat = 0x10000 + (high - 0xD800) * 0x400 + (low - 0xDC00)) :
      SpellsChar c ('\\' :: 'u' :: ds ++ '\\' :: 'u' :: es)

theorem readUnit_of_hexUnit {n : Nat} {ds : List Char} (h : HexUnit n ds) (rest : List Char) :
    readUnit (ds ++ rest) = some (n, rest) := by
  obtain ⟨ha, hb, hc, hd⟩ := h
  simp [readUnit, ha, hb, hc, hd]

theorem not_surrogate (c : Char) : ¬(0xD800 ≤ c.toNat ∧ c.toNat ≤ 0xDFFF) := by
  have hvalid : c.toNat < 0xD800 ∨ 0xDFFF < c.toNat ∧ c.toNat < 0x110000 := c.valid
  omega

theorem readUnicode_unit {c : Char} {ds : List Char} (h : HexUnit c.toNat ds) (rest : List Char) :
    readUnicode (ds ++ rest) = some (c, rest) := by
  have hself := not_surrogate c
  simp only [readUnicode, readUnit_of_hexUnit h, Option.bind_eq_bind, Option.bind_some]
  rw [if_neg (by omega), if_neg (by omega), Char.ofNat_toNat]

theorem readUnicode_pair {c : Char} {ds es : List Char} {high low : Nat} (hds : HexUnit high ds) (hes : HexUnit low es)
    (hhigh : 0xD800 ≤ high ∧ high ≤ 0xDBFF) (hlow : 0xDC00 ≤ low ∧ low ≤ 0xDFFF)
    (hc : c.toNat = 0x10000 + (high - 0xD800) * 0x400 + (low - 0xDC00)) (rest : List Char) :
    readUnicode (ds ++ '\\' :: 'u' :: (es ++ rest)) = some (c, rest) := by
  simp only [readUnicode, readUnit_of_hexUnit hds, readUnit_of_hexUnit hes, Option.bind_eq_bind, Option.bind_some]
  rw [if_neg (by omega), if_pos hhigh, if_pos hlow, ← hc, Char.ofNat_toNat]

theorem readEscape_letter {letter c : Char} (h : (letter, c) ∈ letterEscapes) (rest : List Char) :
    readEscape (letter :: rest) = some (c, rest) := by
  simp only [letterEscapes, List.mem_cons, Prod.mk.injEq, List.not_mem_nil, or_false] at h
  rcases h with ⟨rfl, rfl⟩ | ⟨rfl, rfl⟩ | ⟨rfl, rfl⟩ | ⟨rfl, rfl⟩ | ⟨rfl, rfl⟩ | ⟨rfl, rfl⟩ | ⟨rfl, rfl⟩ | ⟨rfl, rfl⟩
  all_goals rfl

/-- The reader takes one step for each character, whatever it is written as. -/
theorem readStringOnto_of_spells {c : Char} {cs : List Char} (h : SpellsChar c cs) (fuel : Nat) (acc rest : List Char) :
    readStringOnto (fuel + 1) acc (cs ++ rest) = readStringOnto fuel (c :: acc) rest := by
  cases h with
  | plain h =>
    obtain ⟨hquote, hslash, hcontrol⟩ := h
    simp [readStringOnto, hquote, hslash, Nat.not_lt.2 hcontrol]
  | letter h => simp [readStringOnto, readEscape_letter h]
  | unit h =>
    have hescape : readEscape ('u' :: (_ ++ rest)) = some (c, rest) := readUnicode_unit h rest
    simp [readStringOnto, hescape]
  | pair hds hes hhigh hlow hc =>
    have hescape : readEscape ('u' :: (_ ++ '\\' :: 'u' :: (_ ++ rest))) = some (c, rest) :=
      readUnicode_pair hds hes hhigh hlow hc rest
    simp [readStringOnto, hescape]

theorem length_pos_of_spellsChar {c : Char} {cs : List Char} (h : SpellsChar c cs) : 0 < cs.length := by
  cases h <;> simp

/-! ## Strings -/

/-- The ways to write a string: each character in one of its ways, between quotes. -/
def SpellsString (s : String) (text : List Char) : Prop :=
  ∃ pieces, List.Forall₂ SpellsChar s.toList pieces ∧ text = '"' :: pieces.flatten ++ ['"']

theorem readStringOnto_pieces {cs : List Char} {pieces : List (List Char)} (h : List.Forall₂ SpellsChar cs pieces)
    {fuel : Nat} (hfuel : cs.length < fuel) (acc rest : List Char) :
    readStringOnto fuel acc (pieces.flatten ++ '"' :: rest) = some (String.ofList (acc.reverse ++ cs), rest) := by
  induction h generalizing fuel acc with
  | nil =>
    obtain ⟨k, rfl⟩ := Nat.exists_eq_succ_of_ne_zero (Nat.ne_of_gt hfuel)
    simp [readStringOnto]
  | @cons c piece cs pieces hc hcs ih =>
    obtain ⟨k, rfl⟩ := Nat.exists_eq_succ_of_ne_zero (Nat.ne_of_gt (Nat.zero_lt_of_lt hfuel))
    rw [List.flatten_cons, List.append_assoc, readStringOnto_of_spells hc, ih (by simpa using hfuel)]
    simp

theorem length_le_of_pieces {cs : List Char} {pieces : List (List Char)} (h : List.Forall₂ SpellsChar cs pieces) :
    cs.length ≤ pieces.flatten.length := by
  induction h with
  | nil => exact Nat.le_refl 0
  | cons hc _ ih =>
    have hpos := length_pos_of_spellsChar hc
    rw [List.flatten_cons, List.length_append, List.length_cons]
    omega

/-- **A string is read in whatever way it is written**, and what follows its last quote is left. -/
theorem readString_of_spells {s : String} {text : List Char} (h : SpellsString s text) {fuel : Nat}
    (hfuel : text.length ≤ fuel) (rest : List Char) :
    ∃ cs, text ++ rest = '"' :: cs ∧ readString fuel cs = some (s, rest) := by
  obtain ⟨pieces, h, rfl⟩ := h
  have hlength := length_le_of_pieces h
  rw [List.length_append, List.length_cons, List.length_singleton] at hfuel
  refine ⟨pieces.flatten ++ '"' :: rest, by simp, ?_⟩
  rw [readString, readStringOnto_pieces h (by omega), List.reverse_nil, List.nil_append, String.ofList_toList]

/-! ## The way of the printer -/

theorem hexUnit_control : ∀ n < 32, HexUnit n ['0', '0', Nat.digitChar (n / 16), Nat.digitChar (n % 16)] := by
  intro n hn
  have hzero : Text.Hex.digitValue? '0' = some 0 := rfl
  have hdigits := HexUnit.digits hzero hzero (Text.Hex.digitValue?_digitChar (n / 16) (by omega))
    (Text.Hex.digitValue?_digitChar (n % 16) (by omega))
  have hvalue : ((0 * 16 + 0) * 16 + n / 16) * 16 + n % 16 = n := by omega
  rwa [hvalue] at hdigits

theorem spellsChar_escapeChar (c : Char) : SpellsChar c (escapeChar c) := by
  unfold escapeChar
  split_ifs with hquote hslash hb hf hn hr ht hcontrol
  · subst hquote; exact .letter (by decide)
  · subst hslash; exact .letter (by decide)
  · subst hb; exact .letter (by decide)
  · subst hf; exact .letter (by decide)
  · subst hn; exact .letter (by decide)
  · subst hr; exact .letter (by decide)
  · subst ht; exact .letter (by decide)
  · exact .unit (hexUnit_control c.toNat hcontrol)
  · exact .plain ⟨hquote, hslash, Nat.not_lt.1 hcontrol⟩

theorem spellsString_quoted (s : String) : SpellsString s (quoted s) := by
  have hpieces : List.Forall₂ SpellsChar s.toList (s.toList.map escapeChar) := by
    rw [List.forall₂_map_right_iff, List.forall₂_same]
    exact fun c _ => spellsChar_escapeChar c
  rw [quoted, List.flatMap_def]
  exact ⟨_, hpieces, rfl⟩

end Attestation.Json
