import Mathlib
import Attestation.Text.Base64

/-!
# Base64 is read back

`decode?_encode` : what is written in base64 is read back, by groups of three bytes and four symbols.
-/

namespace Attestation.Text.Base64

/-! ## Symbols -/

theorem symbol_ne_pad : ∀ n < 64, symbol n ≠ '=' := by decide

/-- The symbols of a whole group, for the number that its three bytes write. -/
def group (n : Nat) : List Char := [symbol (n / 262144), symbol (n / 4096 % 64), symbol (n / 64 % 64), symbol (n % 64)]

theorem encodeOnto_eq (acc : List Char) (bs : Bytes) : encodeOnto acc bs = acc.reverse ++ symbols bs := by
  have onto : ∀ acc front, encodeOnto (acc ++ front) bs = front.reverse ++ encodeOnto acc bs := by
    intro acc front
    fun_induction encodeOnto acc bs with
    | case1 acc => simp [encodeOnto]
    | case2 acc a n => simp [encodeOnto, n]
    | case3 acc a b n => simp [encodeOnto, n]
    | case4 acc a b c bs n ih => simpa [encodeOnto, n] using ih
  simpa [symbols] using onto [] acc

theorem symbols_cons (a b c : UInt8) (bs : Bytes) :
    symbols (a :: b :: c :: bs) = group ((a.toNat * 256 + b.toNat) * 256 + c.toNat) ++ symbols bs := by
  rw [symbols, encodeOnto, encodeOnto_eq]
  rfl

theorem mem_encodeOnto {acc : List Char} {bs : Bytes} {c : Char} (hc : c ∈ encodeOnto acc bs) :
    c ∈ acc ∨ c = '=' ∨ ∃ n, c = symbol n := by
  fun_induction encodeOnto acc bs with
  | case1 acc => exact .inl (List.mem_reverse.1 hc)
  | case2 acc a n => grind
  | case3 acc a b n => grind
  | case4 acc a b d bs n ih => grind

theorem exists_of_mem_symbols {bs : Bytes} {c : Char} (hc : c ∈ symbols bs) : c = '=' ∨ ∃ n, c = symbol n :=
  (mem_encodeOnto hc).resolve_left List.not_mem_nil

/-! ## Bytes of a group -/

theorem ofNat_eq_of_mod {n : Nat} {b : UInt8} (h : n % 256 = b.toNat) : UInt8.ofNat n = b := by
  apply UInt8.toNat_inj.1
  rwa [UInt8.toNat_ofNat']

section Groups
variable (a b c : UInt8)

/-- The sextets of a whole group give back its bytes. -/
theorem group_bytes {n : Nat} (hn : n = (a.toNat * 256 + b.toNat) * 256 + c.toNat) :
    UInt8.ofNat (n / 262144 * 4 + n / 4096 % 64 / 16) = a ∧ UInt8.ofNat (n / 4096 % 64 * 16 + n / 64 % 64 / 4) = b ∧
      UInt8.ofNat (n / 64 % 64 * 64 + n % 64) = c := by
  have ha := a.toNat_lt
  have hb := b.toNat_lt
  have hc := c.toNat_lt
  refine ⟨ofNat_eq_of_mod ?_, ofNat_eq_of_mod ?_, ofNat_eq_of_mod ?_⟩ <;> omega

theorem value?_group {n : Nat} (hn : n = (a.toNat * 256 + b.toNat) * 256 + c.toNat) :
    value? (symbol (n / 262144)) = some (n / 262144) ∧ value? (symbol (n / 4096 % 64)) = some (n / 4096 % 64) ∧
      value? (symbol (n / 64 % 64)) = some (n / 64 % 64) ∧ value? (symbol (n % 64)) = some (n % 64) := by
  have ha := a.toNat_lt
  have hb := b.toNat_lt
  have hc := c.toNat_lt
  exact ⟨value?_symbol _ (by omega), value?_symbol _ (by omega), value?_symbol _ (by omega),
    value?_symbol _ (by omega)⟩

theorem lastGroup?_three {n : Nat} (hn : n = (a.toNat * 256 + b.toNat) * 256 + c.toNat) :
    lastGroup? (symbol (n / 262144)) (symbol (n / 4096 % 64)) (symbol (n / 64 % 64)) (symbol (n % 64)) =
      some [a, b, c] := by
  obtain ⟨hx, hy, hz, hw⟩ := value?_group a b c hn
  obtain ⟨ha, hb, hc⟩ := group_bytes a b c hn
  have hthird : symbol (n / 64 % 64) ≠ '=' := symbol_ne_pad _ (by omega)
  have hfourth : symbol (n % 64) ≠ '=' := symbol_ne_pad _ (by omega)
  simp only [lastGroup?, hx, hy, hz, hw, Option.bind_eq_bind, Option.bind_some, hthird, hfourth, false_and, if_false,
    ha, hb, hc]

theorem lastGroup?_two {n : Nat} (hn : n = (a.toNat * 256 + b.toNat) * 4) :
    lastGroup? (symbol (n / 4096)) (symbol (n / 64 % 64)) (symbol (n % 64)) '=' = some [a, b] := by
  have ha := a.toNat_lt
  have hb := b.toNat_lt
  have hthird : symbol (n % 64) ≠ '=' := symbol_ne_pad _ (by omega)
  have hfirst : UInt8.ofNat (n / 4096 * 4 + n / 64 % 64 / 16) = a := ofNat_eq_of_mod (by omega)
  have hsecond : UInt8.ofNat (n / 64 % 64 * 16 + n % 64 / 4) = b := ofNat_eq_of_mod (by omega)
  have hzero : n % 64 % 4 = 0 := by omega
  simp only [lastGroup?, value?_symbol (n / 4096) (by omega), value?_symbol (n / 64 % 64) (by omega),
    value?_symbol (n % 64) (by omega), Option.bind_eq_bind, Option.bind_some, hthird, false_and, if_false, hzero,
    if_true, hfirst, hsecond]

theorem lastGroup?_one {n : Nat} (hn : n = a.toNat * 16) :
    lastGroup? (symbol (n / 64)) (symbol (n % 64)) '=' '=' = some [a] := by
  have ha := a.toNat_lt
  have hfirst : UInt8.ofNat (n / 64 * 4 + n % 64 / 16) = a := ofNat_eq_of_mod (by omega)
  have hzero : n % 64 % 16 = 0 := by omega
  simp only [lastGroup?, value?_symbol (n / 64) (by omega), value?_symbol (n % 64) (by omega), Option.bind_eq_bind,
    Option.bind_some, and_self, if_true, hzero, hfirst]

end Groups

/-! ## Texts -/

theorem symbols_eq_nil_iff (bs : Bytes) : symbols bs = [] ↔ bs = [] := by
  constructor
  · intro h
    match bs, h with
    | [], _ => rfl
    | [_], h => simp [symbols, encodeOnto] at h
    | [_, _], h => simp [symbols, encodeOnto] at h
    | _ :: _ :: _ :: _, h => simp [symbols_cons, group] at h
  · rintro rfl
    rfl

theorem decodeOnto_symbols (acc : Bytes) : (bs : Bytes) → decodeOnto acc (symbols bs) = some (acc.reverse ++ bs)
  | [] => by simp [symbols, encodeOnto, decodeOnto]
  | [a] => by
    have hlast := lastGroup?_one a rfl
    simp [symbols, encodeOnto, decodeOnto, hlast]
  | [a, b] => by
    have hlast := lastGroup?_two a b rfl
    simp [symbols, encodeOnto, decodeOnto, hlast]
  | a :: b :: c :: bs => by
    rw [symbols_cons, group]
    by_cases hbs : bs = []
    · have hlast := lastGroup?_three a b c rfl
      simp [hbs, symbols, encodeOnto, decodeOnto, hlast]
    · obtain ⟨hx, hy, hz, hw⟩ := value?_group a b c rfl
      obtain ⟨ha, hb, hc⟩ := group_bytes a b c rfl
      obtain ⟨d, rest, hrest⟩ := List.exists_cons_of_ne_nil (mt (symbols_eq_nil_iff bs).1 hbs)
      have ih := decodeOnto_symbols (c :: b :: a :: acc) bs
      rw [hrest] at ih ⊢
      simp only [List.cons_append, List.nil_append, decodeOnto, hx, hy, hz, hw, ha, hb, hc]
      simpa using ih

/-- **What is written in base64 is read back.** -/
theorem decode?_encode (bs : Bytes) : decode? (encode bs) = some bs := by
  rw [decode?, encode, String.toList_ofList]
  exact decodeOnto_symbols [] bs

end Attestation.Text.Base64
