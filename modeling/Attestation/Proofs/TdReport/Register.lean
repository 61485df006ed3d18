import Attestation.TdReport.Register

/-!
# The registers of a report

* `registerBytes raw index` : the bytes at the place of a register;
* `bytes_rtmr` : the field of the registers is one piece of the report;
* `register_ofBlock` : a register that is taken from the fields is at its place in the bytes;
* `extractRegister_of_le` : and so is one that is taken from the bytes.
-/

namespace Attestation.TdReport

/-- The bytes of a register at its place in a report. -/
def registerBytes (raw : Bytes) (index : Nat) : Bytes := (raw.drop (0x2d0 + 48 * index)).take 48

theorem registerPosition_of_le {index : Int} (h0 : 0 ≤ index) (h3 : index ≤ 3) :
    registerPosition index = .ok index.toNat :=
  if_pos ⟨h0, by simp only [registerCount]; omega⟩

theorem registerPosition_of_not_le {index : Int} (h : ¬ (0 ≤ index ∧ index ≤ 3)) :
    registerPosition index = .error (.invalidRegister index) := by
  refine if_neg fun hc => h ⟨hc.1, ?_⟩
  have hlt := hc.2
  simp only [registerCount] at hlt
  omega

theorem bytes_rtmr (b : Block size) : (ofBlock b).info.rtmr.bytes = (b.bytes.drop 0x2d0).take 192 := by
  have hcut : (ofBlock b).info.rtmr.bytes = ((((((((((b.bytes.drop 256).drop 239).drop 17).drop 8).drop 8).drop
      48).drop 48).drop 48).drop 48)).take 192 := rfl
  rw [hcut]
  simp only [List.drop_drop]

theorem register_ofBlock (b : Block size) {index : Int} (h0 : 0 ≤ index) (h3 : index ≤ 3) :
    (ofBlock b).register index = .ok (registerBytes b.bytes index.toNat) := by
  have hfield : ((ofBlock b).info.rtmr.bytes.drop (48 * index.toNat)).take 48 = registerBytes b.bytes index.toNat := by
    rw [bytes_rtmr, List.drop_take, List.take_take, List.drop_drop, registerBytes, Nat.min_eq_left (by omega)]
  rw [register, registerPosition_of_le h0 h3]
  exact congrArg Except.ok hfield

theorem register_of_not_le (r : TdReport) {index : Int} (h : ¬ (0 ≤ index ∧ index ≤ 3)) :
    r.register index = .error (.invalidRegister index) := by
  rw [register, registerPosition_of_not_le h]
  rfl

/-! ## Reports as bytes -/

section Raw
variable {raw : Bytes} {index : Int}

theorem decode_of_length (h : raw.length = size) : decode raw = .ok (ofBlock ⟨raw, h⟩) := by
  rw [decode, Block.ofBytes?, dif_pos h]

theorem decode_of_length_ne (h : raw.length ≠ size) : decode raw = .error (.malformedReport raw.length) := by
  rw [decode, Block.ofBytes?, dif_neg h]

theorem extractRegister_of_le (hraw : raw.length = size) (h0 : 0 ≤ index) (h3 : index ≤ 3) :
    extractRegister raw index = .ok (registerBytes raw index.toNat) := by
  have hlength : ¬ raw.length ≠ size := fun h => h hraw
  rw [extractRegister, registerOffset, registerPosition_of_le h0 h3]
  simp only [Bind.bind, Except.bind, Pure.pure, Except.pure, if_neg hlength]
  rfl

theorem extractRegister_of_not_le (raw : Bytes) (h : ¬ (0 ≤ index ∧ index ≤ 3)) :
    extractRegister raw index = .error (.invalidRegister index) := by
  rw [extractRegister, registerOffset, registerPosition_of_not_le h]
  rfl

theorem length_registerBytes (hraw : raw.length = size) (h3 : index ≤ 3) :
    (registerBytes raw index.toNat).length = 48 := by
  have hlength : raw.length = 1024 := hraw
  rw [registerBytes, List.length_take, List.length_drop, hlength]
  omega

end Raw

end Attestation.TdReport
