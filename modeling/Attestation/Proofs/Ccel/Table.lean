import Attestation.Ccel.Table
import Attestation.Proofs.Bytes

/-!
# Which byte strings are CCEL tables

* `ofBlock_areaLength`, `ofBlock_areaAddress` : where cutting off the fields one by one finds the last two of them;
* `parse_of_long` : a table that is long enough is never given up for want of a field;
* `parse_exact` : the signature and 56 bytes make a table, the length and the address of its log area stand at the
  offsets 40 and 48, and nothing else in it matters.
-/

namespace Attestation.Ccel

/-! ## Words -/

theorem toNat_word64 (b : Block 8) : (word64 b).toNat = Bytes.toNatLE b.bytes := by
  have hlt := Bytes.toNatLE_lt b.bytes
  rw [b.length_eq] at hlt
  exact UInt64.toNat_ofNat_of_lt' hlt

/-! ## Fields -/

theorem ofBlock_areaLength (b : Block Contents.size) :
    (Contents.ofBlock b).areaLength.toNat = Bytes.toNatLE ((b.bytes.drop 40).take 8) := by
  have hcut : (Contents.ofBlock b).areaLength.toNat =
      Bytes.toNatLE (((((b.bytes.drop 36).drop 1).drop 1).drop 2).take 8) := toNat_word64 _
  rw [hcut]
  simp only [List.drop_drop]

theorem ofBlock_areaAddress (b : Block Contents.size) :
    (Contents.ofBlock b).areaAddress.toNat = Bytes.toNatLE (b.bytes.drop 48) := by
  have hcut : (Contents.ofBlock b).areaAddress.toNat =
      Bytes.toNatLE (((((b.bytes.drop 36).drop 1).drop 1).drop 2).drop 8) := toNat_word64 _
  rw [hcut]
  simp only [List.drop_drop]

/-! ## Tables -/

section Tables
variable {raw : Bytes} {table : Table}

theorem take_signature_iff : raw.take signature.length = signature ↔ signature <+: raw := by
  rw [List.prefix_iff_eq_take]
  exact eq_comm

theorem parse_of_not_signature (h : ¬ signature <+: raw) :
    Table.parse raw = .error (.invalidTable .wrongSignature) := by
  rw [Table.parse, if_pos fun hc => h (take_signature_iff.1 hc)]

theorem parse_of_short (h : signature <+: raw) (hshort : raw.length < 56) :
    Table.parse raw = .error (.invalidTable (.tooShort raw.length)) := by
  have hsmall : raw.length < minTableLength := hshort
  rw [Table.parse, if_neg (not_not.2 (take_signature_iff.2 h)), if_pos hsmall]

/-- In a table that is long enough no field is missing. -/
theorem parse_of_long (h : signature <+: raw) (hlong : 56 ≤ raw.length) :
    ∃ length address : UInt64, Table.parse raw = .ok ⟨raw, length, address⟩ ∧
      length.toNat = Bytes.toNatLE ((raw.drop 40).take 8) ∧ address.toNat = Bytes.toNatLE ((raw.drop 48).take 8) := by
  have hsize : (raw.take Contents.size).length = Contents.size := List.length_take_of_le hlong
  have hread : Contents.read? raw = some (.ofBlock ⟨raw.take Contents.size, hsize⟩) := by
    rw [Contents.read?, Block.ofBytes?, dif_pos hsize, Option.map_some]
  have hlarge : ¬ raw.length < minTableLength := Nat.not_lt.2 hlong
  refine ⟨_, _, ?_, (ofBlock_areaLength ⟨_, hsize⟩).trans ?_, (ofBlock_areaAddress ⟨_, hsize⟩).trans ?_⟩
  · rw [Table.parse, if_neg (not_not.2 (take_signature_iff.2 h)), if_neg hlarge, hread]
  · simp only [Contents.size, List.drop_take, List.take_take, Nat.reduceSub, Nat.reduceLeDiff, Nat.min_eq_left]
  · simp only [Contents.size, List.drop_take, Nat.reduceSub]

/-- How parsing can end. -/
theorem parse_cases (raw : Bytes) :
    (¬ signature <+: raw ∧ Table.parse raw = .error (.invalidTable .wrongSignature)) ∨
      (signature <+: raw ∧ raw.length < 56 ∧ Table.parse raw = .error (.invalidTable (.tooShort raw.length))) ∨
      (signature <+: raw ∧ 56 ≤ raw.length ∧ ∃ length address : UInt64, Table.parse raw = .ok ⟨raw, length, address⟩ ∧
        length.toNat = Bytes.toNatLE ((raw.drop 40).take 8) ∧
        address.toNat = Bytes.toNatLE ((raw.drop 48).take 8)) := by
  by_cases h : signature <+: raw
  · by_cases hshort : raw.length < 56
    · exact .inr (.inl ⟨h, hshort, parse_of_short h hshort⟩)
    · have hlong := Nat.not_lt.1 hshort
      exact .inr (.inr ⟨h, hlong, parse_of_long h hlong⟩)
  · exact .inl ⟨h, parse_of_not_signature h⟩

theorem parse_eq_ok (h : Table.parse raw = .ok table) :
    (signature <+: raw ∧ 56 ≤ raw.length) ∧ table.raw = raw ∧
      table.areaLength.toNat = Bytes.toNatLE ((raw.drop 40).take 8) ∧
      table.areaAddress.toNat = Bytes.toNatLE ((raw.drop 48).take 8) := by
  rcases parse_cases raw with ⟨-, herror⟩ | ⟨-, -, herror⟩ | ⟨hsignature, hlong, length, address, hok, hwords⟩
  · rw [herror] at h
    cases h
  · rw [herror] at h
    cases h
  · rw [hok] at h
    cases h
    exact ⟨⟨hsignature, hlong⟩, rfl, hwords⟩

theorem parse_eq_error {fault : Fault} (h : Table.parse raw = .error fault) :
    ∃ defect, fault = .invalidTable defect := by
  rcases parse_cases raw with ⟨-, herror⟩ | ⟨-, -, herror⟩ | ⟨-, -, length, address, hok, -⟩
  · rw [herror] at h
    cases h
    exact ⟨_, rfl⟩
  · rw [herror] at h
    cases h
    exact ⟨_, rfl⟩
  · rw [hok] at h
    cases h

/-- Only the sixteen bytes from offset 40 on say where the log area is. -/
theorem parse_congr {other : Bytes} {table' : Table} (h : Table.parse raw = .ok table)
    (h' : Table.parse other = .ok table') (hsame : (raw.drop 40).take 16 = (other.drop 40).take 16) :
    table.areaLength = table'.areaLength ∧ table.areaAddress = table'.areaAddress := by
  have hlength (bs : Bytes) : (bs.drop 40).take 8 = ((bs.drop 40).take 16).take 8 := by
    rw [List.take_take]
    rfl
  have haddress (bs : Bytes) : (bs.drop 48).take 8 = ((bs.drop 40).take 16).drop 8 := by
    rw [List.drop_take, List.drop_drop]
  obtain ⟨-, -, hl, ha⟩ := parse_eq_ok h
  obtain ⟨-, -, hl', ha'⟩ := parse_eq_ok h'
  constructor
  · apply UInt64.toNat_inj.1
    rw [hl, hl', hlength, hlength, hsame]
  · apply UInt64.toNat_inj.1
    rw [ha, ha', haddress, haddress, hsame]

/-- A table with any length and any address of the log area, whatever is in front of them and behind. -/
theorem parse_append {front : Bytes} (h : signature <+: front) (hfront : front.length = 40) (length address : UInt64)
    (rest : Bytes) :
    Table.parse (front ++ (Bytes.ofNatLE 8 length.toNat ++ (Bytes.ofNatLE 8 address.toNat ++ rest))) =
      .ok ⟨front ++ (Bytes.ofNatLE 8 length.toNat ++ (Bytes.ofNatLE 8 address.toNat ++ rest)), length, address⟩ := by
  generalize hraw : front ++ (Bytes.ofNatLE 8 length.toNat ++ (Bytes.ofNatLE 8 address.toNat ++ rest)) = raw
  have hsignature : signature <+: raw := by
    rw [← hraw]
    exact h.trans (List.prefix_append _ _)
  have hlong : 56 ≤ raw.length := by
    rw [← hraw]
    simp only [List.length_append, hfront, Bytes.length_ofNatLE]
    omega
  have hdrop : raw.drop 40 = Bytes.ofNatLE 8 length.toNat ++ (Bytes.ofNatLE 8 address.toNat ++ rest) := by
    rw [← hraw, ← hfront, List.drop_left]
  obtain ⟨length', address', hok, hl, ha⟩ := parse_of_long hsignature hlong
  obtain rfl : length' = length := by
    apply UInt64.toNat_inj.1
    rw [hl, hdrop, List.take_left' (Bytes.length_ofNatLE _ _)]
    exact Bytes.toNatLE_ofNatLE length.toNat_lt
  obtain rfl : address' = address := by
    apply UInt64.toNat_inj.1
    rw [ha, show raw.drop 48 = (raw.drop 40).drop 8 by rw [List.drop_drop], hdrop,
      List.drop_left' (Bytes.length_ofNatLE _ _), List.take_left' (Bytes.length_ofNatLE _ _)]
    exact Bytes.toNatLE_ofNatLE address.toNat_lt
  exact hok

end Tables

/-- **A table is its signature and 56 bytes.** Exactly the byte strings that begin with `CCEL` and have 56 bytes or more
are tables. They are kept as they are, with the length of the log area from the eight bytes at offset 40 and its address
from those at offset 48, each of any value. Anything else is an invalid table: for its signature if that is wrong or
incomplete, else for its length. That a field cannot be read is never said. Tables with the same sixteen bytes at
offset 40 have the same log area. -/
theorem parse_exact (raw : Bytes) :
    ((∃ table, Table.parse raw = .ok table) ↔ 56 ≤ raw.length ∧ Bytes.ofText "CCEL" <+: raw) ∧
    (∀ table, Table.parse raw = .ok table → table.raw = raw ∧
      table.areaLength.toNat = Bytes.toNatLE ((raw.drop 40).take 8) ∧
      table.areaAddress.toNat = Bytes.toNatLE ((raw.drop 48).take 8)) ∧
    (¬ Bytes.ofText "CCEL" <+: raw → Table.parse raw = .error (.invalidTable .wrongSignature)) ∧
    (Bytes.ofText "CCEL" <+: raw → raw.length < 56 →
      Table.parse raw = .error (.invalidTable (.tooShort raw.length))) ∧
    (∀ field, Table.parse raw ≠ .error (.attributeUnreadable field)) ∧
    (∀ other table table', Table.parse raw = .ok table → Table.parse other = .ok table' →
      (raw.drop 40).take 16 = (other.drop 40).take 16 →
      table.areaLength = table'.areaLength ∧ table.areaAddress = table'.areaAddress) ∧
    ∀ length address : UInt64, 56 ≤ raw.length → Bytes.ofText "CCEL" <+: raw →
      ∃ raw', raw'.take 40 = raw.take 40 ∧ raw'.drop 56 = raw.drop 56 ∧
        Table.parse raw' = .ok ⟨raw', length, address⟩ := by
  refine ⟨⟨?_, ?_⟩, ?_, parse_of_not_signature, parse_of_short, ?_, fun other table table' => parse_congr, ?_⟩
  · rintro ⟨table, h⟩
    obtain ⟨⟨hsignature, hlong⟩, -⟩ := parse_eq_ok h
    exact ⟨hlong, hsignature⟩
  · rintro ⟨hlong, hsignature⟩
    obtain ⟨length, address, hok, -⟩ := parse_of_long hsignature hlong
    exact ⟨_, hok⟩
  · intro table h
    exact (parse_eq_ok h).2
  · intro field h
    obtain ⟨defect, hdefect⟩ := parse_eq_error h
    cases hdefect
  · intro length address hlong hsignature
    have hfront : (raw.take 40).length = 40 := List.length_take_of_le (by omega)
    have hbegins : signature <+: raw.take 40 := List.prefix_take_iff.2 ⟨hsignature, by decide⟩
    refine ⟨_, ?_, ?_, parse_append hbegins hfront length address (raw.drop 56)⟩
    · exact List.take_left' hfront
    · have hwords : (raw.take 40 ++ (Bytes.ofNatLE 8 length.toNat ++ Bytes.ofNatLE 8 address.toNat)).length = 56 := by
        simp only [List.length_append, hfront, Bytes.length_ofNatLE]
      rw [← List.append_assoc (Bytes.ofNatLE 8 length.toNat), ← List.append_assoc, List.drop_left' hwords]

/-- A table of 57 bytes. -/
def longTable : Bytes := Bytes.ofText "CCEL" ++ List.replicate 53 1

theorem parse_exact_sample :
    ∃ table raw', 56 ≤ longTable.length ∧ Bytes.ofText "CCEL" <+: longTable ∧
      Table.parse longTable = .ok table ∧ table.raw = longTable ∧ table.areaAddress.toNat = 0x101010101010101 ∧
      raw'.take 40 = longTable.take 40 ∧ raw'.drop 56 = [1] ∧
      Table.parse raw' = .ok ⟨raw', 0, 0xFFFFFFFFFFFFFFFF⟩ ∧
      Table.parse (longTable.take 55) = .error (.invalidTable (.tooShort 55)) ∧
      Table.parse (longTable.take 3) = .error (.invalidTable .wrongSignature) := by
  have hlong : 56 ≤ longTable.length := by decide
  have hsignature : Bytes.ofText "CCEL" <+: longTable := List.prefix_append _ _
  obtain ⟨⟨-, hok⟩, hfields, -, -, -, -, hany⟩ := parse_exact longTable
  obtain ⟨table, htable⟩ := hok ⟨hlong, hsignature⟩
  obtain ⟨hraw, -, haddress⟩ := hfields table htable
  obtain ⟨raw', hfront, hrest, hraw'⟩ := hany 0 0xFFFFFFFFFFFFFFFF hlong hsignature
  obtain ⟨-, -, -, hshort, -⟩ := parse_exact (longTable.take 55)
  obtain ⟨-, -, hwrong, -⟩ := parse_exact (longTable.take 3)
  refine ⟨table, raw', hlong, hsignature, htable, hraw, haddress.trans (by decide), hfront, hrest, hraw', ?_, ?_⟩
  · exact hshort (by decide) (by decide)
  · exact hwrong (by decide)

end Attestation.Ccel
