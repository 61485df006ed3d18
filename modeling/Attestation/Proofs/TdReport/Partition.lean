import Attestation.Proofs.Bytes
import Attestation.Proofs.TdReport.Register

/-!
# Every byte of a report lies in one field

* `TdReport.fields` : the bytes of each field, in the order of the format;
* `toBlock_ofBlock`, `ofBlock_toBlock` : cutting a report into its fields and joining them undo each other;
* `decode_eq_ok_iff` : exactly the joined fields of a report are decoded to it;
* `existsUnique_piece` : each offset lies in one of the pieces of a list;
* `decode_partition` : the fields of a decoded report tile its bytes, and a register is the same from both.
-/

namespace Attestation.TdReport

/-! ## Fields -/

def TransportType.fields (t : TransportType) : List Bytes := [[t.kind], [t.subKind], [t.version], [t.reserved]]

def Mac.fields (m : Mac) : List Bytes :=
  m.reportType.fields ++ [m.reserved1.bytes, m.cpuSvn.bytes, m.tcbInfoHash.bytes, m.infoHash.bytes,
    m.reportData.bytes, m.reserved2.bytes, m.mac.bytes]

def TcbInfo.fields (t : TcbInfo) : List Bytes :=
  [t.valid.bytes, t.svn.bytes, t.mrSeam.bytes, t.mrSignerSeam.bytes, t.attributes.bytes, t.reserved.bytes]

def Info.fields (i : Info) : List Bytes :=
  [i.attributes.bytes, i.xfam.bytes, i.mrTd.bytes, i.mrConfigId.bytes, i.mrOwner.bytes, i.mrOwnerConfig.bytes,
    i.rtmr.bytes, i.reserved.bytes]

/-- The bytes of each field, in the order of the format, reserved fields included. -/
def fields (r : TdReport) : List Bytes := r.mac.fields ++ r.tcbInfo.fields ++ r.reserved.bytes :: r.info.fields

/-- The number of bytes of each field. -/
def fieldSizes : List Nat :=
  [1, 1, 1, 1, 12, 16, 48, 48, 64, 32, 32] ++ [8, 16, 48, 48, 8, 111] ++ 17 :: [8, 8, 48, 48, 48, 48, 192, 112]

theorem length_fields (r : TdReport) : r.fields.map List.length = fieldSizes := by
  simp [fields, Mac.fields, TransportType.fields, TcbInfo.fields, Info.fields, fieldSizes, Block.length_eq]

/-! ## Cutting and joining -/

theorem TransportType.toBlock_ofBlock (b : Block 4) : (TransportType.ofBlock b).toBlock = b := by
  simp only [TransportType.ofBlock, TransportType.toBlock, Block.ofByte_byte]
  rw [Block.append_split, Block.append_split, Block.append_split]

theorem Mac.toBlock_ofBlock (b : Block 256) : (Mac.ofBlock b).toBlock = b := by
  simp only [Mac.ofBlock, Mac.toBlock, TransportType.toBlock_ofBlock]
  rw [Block.append_split, Block.append_split, Block.append_split, Block.append_split, Block.append_split,
    Block.append_split, Block.append_split]

theorem TcbInfo.toBlock_ofBlock (b : Block 239) : (TcbInfo.ofBlock b).toBlock = b := by
  simp only [TcbInfo.ofBlock, TcbInfo.toBlock]
  rw [Block.append_split, Block.append_split, Block.append_split, Block.append_split, Block.append_split]

theorem Info.toBlock_ofBlock (b : Block 512) : (Info.ofBlock b).toBlock = b := by
  simp only [Info.ofBlock, Info.toBlock]
  rw [Block.append_split, Block.append_split, Block.append_split, Block.append_split, Block.append_split,
    Block.append_split, Block.append_split]

theorem toBlock_ofBlock (b : Block size) : (ofBlock b).toBlock = b := by
  simp only [ofBlock, toBlock, Mac.toBlock_ofBlock, TcbInfo.toBlock_ofBlock, Info.toBlock_ofBlock]
  rw [Block.append_split, Block.append_split]
  exact Block.append_split (n := 768) 256 b

theorem TransportType.ofBlock_toBlock (t : TransportType) : TransportType.ofBlock t.toBlock = t := by
  simp only [TransportType.ofBlock, TransportType.toBlock, Block.split_append]
  rfl

theorem Mac.ofBlock_toBlock (m : Mac) : Mac.ofBlock m.toBlock = m := by
  simp only [Mac.ofBlock, Mac.toBlock, Block.split_append, TransportType.ofBlock_toBlock]

theorem TcbInfo.ofBlock_toBlock (t : TcbInfo) : TcbInfo.ofBlock t.toBlock = t := by
  simp only [TcbInfo.ofBlock, TcbInfo.toBlock, Block.split_append]

theorem Info.ofBlock_toBlock (i : Info) : Info.ofBlock i.toBlock = i := by
  simp only [Info.ofBlock, Info.toBlock, Block.split_append]

theorem ofBlock_toBlock (r : TdReport) : ofBlock r.toBlock = r := by
  simp only [ofBlock, toBlock, Block.split_append, Mac.ofBlock_toBlock, TcbInfo.ofBlock_toBlock, Info.ofBlock_toBlock]

theorem flatten_fields (r : TdReport) : r.fields.flatten = r.toBlock.bytes := by
  simp [fields, Mac.fields, TransportType.fields, TcbInfo.fields, Info.fields, toBlock, Mac.toBlock,
    TransportType.toBlock, TcbInfo.toBlock, Info.toBlock, Block.append, Block.ofByte]

/-- Exactly the joined fields of a report are decoded to it. -/
theorem decode_eq_ok_iff {raw : Bytes} {r : TdReport} : decode raw = .ok r ↔ raw = r.fields.flatten := by
  rw [flatten_fields]
  constructor
  · intro h
    by_cases hlength : raw.length = size
    · rw [decode_of_length hlength] at h
      cases h
      rw [toBlock_ofBlock]
    · rw [decode_of_length_ne hlength] at h
      cases h
  · rintro rfl
    rw [decode_of_length r.toBlock.length_eq]
    exact congrArg Except.ok r.ofBlock_toBlock

/-! ## Pieces -/

/-- Each offset lies in one piece. -/
theorem existsUnique_piece {sizes : List Nat} {o : Nat} (ho : o < sizes.sum) :
    ∃! i, (sizes.take i).sum ≤ o ∧ o < (sizes.take (i + 1)).sum := by
  induction sizes generalizing o with
  | nil => exact absurd ho (Nat.not_lt_zero o)
  | cons n sizes ih =>
    rw [List.sum_cons] at ho
    by_cases hn : o < n
    · refine ⟨0, by simpa using hn, ?_⟩
      rintro (_ | j) ⟨hle, -⟩
      · rfl
      · rw [List.take_succ_cons, List.sum_cons] at hle
        omega
    · obtain ⟨i, ⟨hle, hlt⟩, hunique⟩ := ih (o := o - n) (by omega)
      refine ⟨i + 1, ⟨?_, ?_⟩, ?_⟩
      · rw [List.take_succ_cons, List.sum_cons]
        omega
      · rw [List.take_succ_cons, List.sum_cons]
        omega
      · rintro (_ | j) ⟨hle', hlt'⟩
        · simp at hlt'
          omega
        · rw [List.take_succ_cons, List.sum_cons] at hle' hlt'
          exact congrArg (· + 1) (hunique j (by omega))

/-! ## Decoded reports -/

/-- **Every byte of a report lies in one field.** Exactly the byte strings of length 1024 are decoded. The fields of
what is decoded, one after the other, are the bytes again, so nothing else is decoded to the same report, and all
choices of fields are decoded. A register of the report is the one that is taken from its bytes. -/
theorem decode_partition (raw : Bytes) :
    ((∃ report, decode raw = .ok report) ↔ raw.length = 1024) ∧
    (raw.length ≠ 1024 → decode raw = .error (.malformedReport raw.length)) ∧
    (∀ report : TdReport, decode report.fields.flatten = .ok report) ∧
    ∀ report, decode raw = .ok report →
      report.fields.flatten = raw ∧
      (∀ (i : Nat) (hi : i < report.fields.length),
        report.fields[i] = (raw.take (fieldSizes.take (i + 1)).sum).drop (fieldSizes.take i).sum) ∧
      (∀ o < raw.length, ∃! i, (fieldSizes.take i).sum ≤ o ∧ o < (fieldSizes.take (i + 1)).sum) ∧
      (∀ other, decode other = .ok report → other = raw) ∧
      ∀ index : Int,
        (0 ≤ index ∧ index ≤ 3 → (registerBytes raw index.toNat).length = 48 ∧
          report.register index = .ok (registerBytes raw index.toNat) ∧
          extractRegister raw index = .ok (registerBytes raw index.toNat)) ∧
        (¬ (0 ≤ index ∧ index ≤ 3) → report.register index = .error (.invalidRegister index) ∧
          extractRegister raw index = .error (.invalidRegister index)) := by
  refine ⟨⟨?_, ?_⟩, decode_of_length_ne, fun report => decode_eq_ok_iff.2 rfl, ?_⟩
  · intro hp
    obtain ⟨report, hreport⟩ := hp
    by_contra hlength
    rw [decode_of_length_ne hlength] at hreport
    cases hreport
  · intro hlength
    exact ⟨_, decode_of_length hlength⟩
  · intro report hreport
    have hraw := decode_eq_ok_iff.1 hreport
    have hlength : raw.length = size := by
      rw [hraw, flatten_fields]
      exact report.toBlock.length_eq
    refine ⟨hraw.symm, fun i hi => ?_, fun o ho => ?_, fun other hother => ?_, fun index => ⟨?_, ?_⟩⟩
    · rw [hraw, ← report.length_fields]
      exact (List.drop_take_succ_flatten_eq_getElem _ i hi).symm
    · refine existsUnique_piece ?_
      rw [hlength] at ho
      exact ho
    · rw [hraw]
      exact decode_eq_ok_iff.1 hother
    · rintro ⟨h0, h3⟩
      rw [decode_of_length hlength] at hreport
      cases hreport
      exact ⟨length_registerBytes hlength h3, register_ofBlock _ h0 h3, extractRegister_of_le hlength h0 h3⟩
    · intro h
      exact ⟨report.register_of_not_le h, extractRegister_of_not_le raw h⟩

/-- A report with a different byte at each offset, up to 256. -/
def sampleRaw : Bytes := (List.range 1024).map UInt8.ofNat

theorem decode_partition_sample :
    sampleRaw.length = 1024 ∧ ∃ report, decode sampleRaw = .ok report ∧ report.fields.flatten = sampleRaw ∧
      report.fields[24]? = some ((sampleRaw.take 912).drop 720) ∧
      report.register 3 = .ok (registerBytes sampleRaw 3) ∧
      extractRegister sampleRaw 3 = .ok (registerBytes sampleRaw 3) ∧
      report.register 4 = .error (.invalidRegister 4) := by
  have hlength : sampleRaw.length = 1024 := by simp [sampleRaw]
  obtain ⟨hdecodes, -, -, hreport⟩ := decode_partition sampleRaw
  obtain ⟨report, hdecode⟩ := hdecodes.2 hlength
  obtain ⟨hflatten, hpieces, -, -, hregister⟩ := hreport report hdecode
  have hcount : 24 < report.fields.length := by
    rw [← List.length_map (f := List.length), report.length_fields]
    decide
  obtain ⟨-, hthree, hraw⟩ := (hregister 3).1 (by decide)
  refine ⟨hlength, report, hdecode, hflatten, ?_, hthree, hraw, ((hregister 4).2 (by decide)).1⟩
  rw [List.getElem?_eq_getElem hcount, hpieces 24 hcount]
  rfl

end Attestation.TdReport
