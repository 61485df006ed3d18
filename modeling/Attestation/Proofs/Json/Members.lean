import Attestation.Proofs.Json.Compact
import Attestation.Proofs.Text.Base64
import Attestation.Proofs.Text.Hex

/-!
# Members of documents

* `Datum.member?`, `Datum.items?`, `Datum.number?`, `Datum.bytes?` : a member of a table, the items that it lists, the
  number that it holds, and the bytes that it writes in base64;
* `Datum.names` : the names of the members, in their order;
* `unescaped_base64`, `unescaped_hex` : the strings of documents, which stand in JSON as they are;
* `tidy_ofNat`, `tidy_table` : numbers that fit into 64 bits, and tables of tidy members.
-/

namespace Attestation
open Json (Plain Unescaped Tidy)

/-! ## Reading members -/

namespace Datum

def member? : Datum → (name : String) → Option Datum
  | .table members, name => Members.get? members name
  | _, _ => none

/-- The bytes that a member of a table writes in base64. -/
def bytes? (d : Datum) (name : String) : Option Bytes :=
  match d.member? name with
  | some (.text s) => Text.Base64.decode? s
  | _ => none

/-- The items of a member that is a list. -/
def items? (d : Datum) (name : String) : Option (List Datum) :=
  match d.member? name with
  | some (.list items) => some items
  | _ => none

def natural? : Datum → Option Nat
  | .integer (.ofNat n) => some n
  | _ => none

def number? (d : Datum) (name : String) : Option Nat := d.member? name >>= natural?

/-- The names of the members of a table, in their order. -/
def names : Datum → List String
  | .table members => members.map Prod.fst
  | _ => []

/-- Items that are read one by one. -/
theorem mapM_map_eq_some {α β γ : Type} (f : β → Option γ) (g : α → β) {k : α → γ} (h : ∀ a, f (g a) = some (k a))
    (xs : List α) : (xs.map g).mapM f = some (xs.map k) := by
  have hpure : f ∘ g = fun a => pure (k a) := funext h
  rw [List.mapM_map, hpure, List.mapM_pure]
  rfl

theorem bytes?_of_member? {d : Datum} {name : String} {bs : Bytes}
    (h : d.member? name = some (.text (Text.Base64.encode bs))) : d.bytes? name = some bs := by
  rw [bytes?, h]
  exact Text.Base64.decode?_encode bs

end Datum

/-! ## Strings without escapes -/

theorem Json.unescaped_ofList {cs : List Char} (h : ∀ c ∈ cs, Plain c) : Unescaped (String.ofList cs) := by
  rwa [Unescaped, String.toList_ofList]

theorem unescaped_toString (n : Nat) : Unescaped (toString n) := by
  rw [Nat.toString_eq_ofList_toDigits]
  exact Json.unescaped_ofList fun c hc => Json.plain_of_isDigit (Text.Decimal.isDigit_toDigits hc)

theorem plain_symbol (n : Nat) : Plain (Text.Base64.symbol n) := by
  have hsextet : ∀ n < 64, Plain (Text.Base64.symbol n) := by decide
  by_cases hn : n < 64
  · exact hsextet n hn
  · have hlast : Text.Base64.symbol n = '/' := by
      rw [Text.Base64.symbol, if_neg (by omega), if_neg (by omega), if_neg (by omega), if_neg (by omega)]
    rw [hlast]
    decide

theorem unescaped_base64 (bs : Bytes) : Unescaped (Text.Base64.encode bs) := by
  refine Json.unescaped_ofList fun c hc => ?_
  obtain rfl | ⟨n, rfl⟩ := Text.Base64.exists_of_mem_symbols hc
  · decide
  · exact plain_symbol n

theorem unescaped_hex (bs : Bytes) : Unescaped (Text.Hex.encode bs) := by
  have hdigit : ∀ n < 16, Plain (Nat.digitChar n) := by decide
  refine Json.unescaped_ofList fun c hc => ?_
  obtain ⟨n, hn, rfl⟩ := Text.Hex.exists_of_mem_digits hc
  exact hdigit n hn

/-! ## Tidy values -/

section Tidy
variable {levels : Nat}

theorem tidy_ofNat {n : Nat} (hn : n < UInt64.size) : Tidy Unescaped levels (.ofNat n) :=
  .number (Nat.le_of_lt_succ hn)

theorem tidy_word64 (n : UInt64) : Tidy Unescaped levels (.ofNat n.toNat) := tidy_ofNat n.toNat_lt

theorem tidy_word32 (n : UInt32) : Tidy Unescaped levels (.ofNat n.toNat) :=
  tidy_ofNat (Nat.lt_trans n.toNat_lt (by decide))

theorem tidy_word16 (n : UInt16) : Tidy Unescaped levels (.ofNat n.toNat) :=
  tidy_ofNat (Nat.lt_trans n.toNat_lt (by decide))

theorem tidy_word8 (n : UInt8) : Tidy Unescaped levels (.ofNat n.toNat) :=
  tidy_ofNat (Nat.lt_trans n.toNat_lt (by decide))

theorem tidy_base64 (bs : Bytes) : Tidy Unescaped levels (.text (Text.Base64.encode bs)) := .text (unescaped_base64 bs)

/-- A table whose names stand in JSON as they are, none of them twice. -/
theorem tidy_table {members : Members}
    (hnames : (members.map Prod.fst).Nodup ∧ ∀ name ∈ members.map Prod.fst, Unescaped name)
    (h : ∀ m ∈ members, Tidy Unescaped levels m.2) : Tidy Unescaped (levels + 1) (.table members) :=
  .table hnames.1 (fun m hm => hnames.2 m.1 (List.mem_map_of_mem hm)) h

end Tidy

end Attestation
