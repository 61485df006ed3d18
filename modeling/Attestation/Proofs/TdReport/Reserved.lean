import Attestation.Proofs.TdReport.Partition

/-!
# The reserved bytes of a report

* `Reserved` : the offsets that the format reserves;
* `TdReport.cleared` : a report with zeros in its reserved fields;
* `toBlock_cleared` : these are the bytes at the reserved offsets, and no others;
* `Agree` : the bytes of two reports agree at all other offsets, as `cleared_eq_iff` says of their fields.
-/

namespace Attestation.TdReport

/-- The format reserves the byte at this offset. -/
def Reserved (o : Nat) : Prop :=
  (3 ≤ o ∧ o < 16) ∨ (192 ≤ o ∧ o < 224) ∨ (384 ≤ o ∧ o < 512) ∨ (912 ≤ o ∧ o < 1024)

instance (o : Nat) : Decidable (Reserved o) := inferInstanceAs (Decidable (_ ∨ _))

/-- The bytes of two reports agree at every offset that is not reserved. -/
def Agree (raw other : Bytes) : Prop := ∀ o < size, ¬ Reserved o → raw[o]? = other[o]?

/-- One byte of a report matters unless it is reserved. -/
theorem agree_set_iff {raw : Bytes} (hraw : raw.length = size) {o : Nat} (ho : o < size) (b : UInt8) :
    Agree (raw.set o b) raw ↔ Reserved o ∨ raw[o]? = some b := by
  have hset : (raw.set o b)[o]? = some b := List.getElem?_set_self (by rwa [hraw])
  constructor
  · intro h
    refine or_iff_not_imp_left.2 fun hfree => ?_
    rw [← h o ho hfree, hset]
  · intro h i hi hfree
    by_cases hio : o = i
    · subst hio
      rw [hset, h.resolve_left hfree]
    · exact List.getElem?_set_ne hio

/-! ## Reserved fields -/

def TransportType.cleared (t : TransportType) : TransportType := { t with reserved := 0 }

def Mac.cleared (m : Mac) : Mac :=
  { m with reportType := m.reportType.cleared, reserved1 := .zeros 12, reserved2 := .zeros 32 }

def TcbInfo.cleared (t : TcbInfo) : TcbInfo := { t with reserved := .zeros 111 }

def Info.cleared (i : Info) : Info := { i with reserved := .zeros 112 }

/-- The report with zeros in its reserved fields. -/
def cleared (r : TdReport) : TdReport :=
  { mac := r.mac.cleared, tcbInfo := r.tcbInfo.cleared, reserved := .zeros 17, info := r.info.cleared }

/-- Which of the fields are reserved, in the order of `fields`. -/
def reservedFields : List Bool :=
  [false, false, false, true, true, false, false, false, false, true, false] ++
    [false, false, false, false, false, true] ++ true :: [false, false, false, false, false, false, false, true]

def clearByte (reserved : Bool) (b : UInt8) : UInt8 := bif reserved then 0 else b

def clearField (reserved : Bool) (bs : Bytes) : Bytes := bs.map (clearByte reserved)

theorem clearField_false (bs : Bytes) : clearField false bs = bs := List.map_id bs

theorem clearField_true {n : Nat} (b : Block n) : clearField true b.bytes = (Block.zeros n).bytes := by
  calc clearField true b.bytes = List.replicate b.bytes.length 0 := List.map_const'
    _ = (Block.zeros n).bytes := congrArg (List.replicate · 0) b.length_eq

theorem fields_cleared (r : TdReport) : r.cleared.fields = List.zipWith clearField reservedFields r.fields := by
  have hbyte : clearField true [r.mac.reportType.reserved] = [0] := rfl
  simp [fields, Mac.fields, TransportType.fields, TcbInfo.fields, Info.fields, cleared, Mac.cleared,
    TransportType.cleared, TcbInfo.cleared, Info.cleared, reservedFields, clearField_false, clearField_true, hbyte]

/-! ## Reserved bytes -/

/-- The flag of each byte, which is that of its field. -/
def byteFlags (sizes : List Nat) (flags : List Bool) : List Bool := (List.zipWith List.replicate sizes flags).flatten

theorem byteFlags_cons (n : Nat) (sizes : List Nat) (flag : Bool) (flags : List Bool) :
    byteFlags (n :: sizes) (flag :: flags) = List.replicate n flag ++ byteFlags sizes flags := rfl

theorem zipWith_clearByte_replicate (flag : Bool) (bs : Bytes) :
    List.zipWith clearByte (List.replicate bs.length flag) bs = clearField flag bs := by
  induction bs with
  | nil => rfl
  | cons b bs ih => exact congrArg (clearByte flag b :: ·) ih

/-- To clear fields is to clear their bytes. -/
theorem flatten_zipWith_clearField (flags : List Bool) (fs : List Bytes) :
    (List.zipWith clearField flags fs).flatten =
      List.zipWith clearByte (byteFlags (fs.map List.length) flags) fs.flatten := by
  -- field by field: each stands in front of the others, and its flag as often as it has bytes
  induction fs generalizing flags with
  | nil => simp
  | cons f fs ih =>
    cases flags with
    | nil => rfl
    | cons flag flags =>
      rw [List.zipWith_cons_cons, List.flatten_cons, List.map_cons, byteFlags_cons, List.flatten_cons,
        List.zipWith_append (List.length_replicate), zipWith_clearByte_replicate, ih]

/-- The reserved fields hold the bytes at the reserved offsets. -/
theorem byteFlags_reservedFields :
    byteFlags fieldSizes reservedFields = (List.range size).map fun o => decide (Reserved o) := by
  decide +kernel

theorem toBlock_cleared (r : TdReport) {o : Nat} (ho : o < size) :
    r.cleared.toBlock.bytes[o]? = if Reserved o then some 0 else r.toBlock.bytes[o]? := by
  have hlt : o < r.toBlock.bytes.length := by rwa [r.toBlock.length_eq]
  have hclear : r.cleared.toBlock.bytes =
      List.zipWith clearByte ((List.range size).map fun o => decide (Reserved o)) r.toBlock.bytes := by
    rw [← flatten_fields, fields_cleared, flatten_zipWith_clearField, length_fields, byteFlags_reservedFields,
      flatten_fields]
  rw [hclear, List.getElem?_zipWith, List.getElem?_map, List.getElem?_range ho, List.getElem?_eq_getElem hlt]
  by_cases h : Reserved o <;> simp [clearByte, h]

theorem agree_cleared (r : TdReport) : Agree r.cleared.toBlock.bytes r.toBlock.bytes := by
  intro o ho hfree
  rw [r.toBlock_cleared ho, if_neg hfree]

theorem toBlock_injective {r s : TdReport} (h : r.toBlock = s.toBlock) : r = s := by
  rw [← r.ofBlock_toBlock, h, s.ofBlock_toBlock]

/-- Reports that differ in reserved fields only. -/
theorem cleared_eq_iff {r s : TdReport} : r.cleared = s.cleared ↔ Agree r.toBlock.bytes s.toBlock.bytes := by
  constructor
  · intro h o ho hfree
    rw [← r.agree_cleared o ho hfree, h, s.agree_cleared o ho hfree]
  · intro h
    refine toBlock_injective (Block.ext (List.ext_getElem? fun o => ?_))
    by_cases ho : o < size
    · rw [r.toBlock_cleared ho, s.toBlock_cleared ho]
      split
      · rfl
      · next hfree => exact h o ho hfree
    · have hnone (t : TdReport) : t.toBlock.bytes[o]? = none :=
        List.getElem?_eq_none (by rw [t.toBlock.length_eq]; exact Nat.le_of_not_lt ho)
      rw [hnone, hnone]

end Attestation.TdReport
