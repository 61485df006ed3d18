import Attestation.Proofs.Device.Tdx

/-!
# Registers of a fresh report

A register is asked for by asking for a report. `rawReport_fault` lists what can go wrong with the report, and
`register_extracts` says that nothing else goes wrong with the register, which is the one of that report.
-/

namespace Attestation.Tdx
open TdReport (registerBytes decode_of_length register_ofBlock)
open Text

variable {tree : FileTree} {driver : Driver} {device : Device} {reportData : Bytes}

/-! ## The report -/

/-- What keeps a TDX device from giving a report. -/
inductive ReportFault (device : Device) (reportData : Bytes) : Fault → Prop where
  | tooLong : ReportFault device reportData (.reportDataTooLong reportData.length)
  | deprecated : ReportFault device reportData (.deprecatedDevice device.path)
  | foreign : ReportFault device reportData .deviceNotFound
  | unopened (cause : OsError) : ReportFault device reportData (.deviceUnopened device.path cause)
  | refused (cause : OsError) : ReportFault device reportData (.reportRefused device.path cause)

theorem padReportData_eq_error {fault : Fault} (h : padReportData reportData = .error fault) :
    fault = .reportDataTooLong reportData.length := by
  unfold padReportData at h
  split at h
  · cases h
  · cases h
    rfl

theorem openNode_eq_error {fault : Fault} (h : openNode tree device = .error fault) :
    ∃ cause, fault = .deviceUnopened device.path cause := by
  unfold openNode at h
  split at h
  · cases h
  · next cause _ =>
    cases h
    exact ⟨cause, rfl⟩

theorem prepare_fault {fault : Fault} (h : prepare tree device reportData = .error fault) :
    ReportFault device reportData fault := by
  unfold prepare at h
  cases hpad : padReportData reportData with
  | error e =>
    rw [hpad] at h
    cases h
    rw [padReportData_eq_error hpad]
    exact .tooLong
  | ok data =>
    cases hrequest : request device data with
    | error e =>
      simp only [hpad, hrequest, Bind.bind, Except.bind] at h
      cases h
      unfold request at hrequest
      split at hrequest
      · split at hrequest
        · cases hrequest
        · cases hrequest
          exact .deprecated
      · cases hrequest
        exact .foreign
    | ok sent =>
      cases hopen : openNode tree device with
      | ok u => simp [hpad, hrequest, hopen, Bind.bind, Except.bind, Pure.pure, Except.pure] at h
      | error e =>
        simp only [hpad, hrequest, hopen, Bind.bind, Except.bind] at h
        cases h
        obtain ⟨cause, rfl⟩ := openNode_eq_error hopen
        exact .unopened cause

theorem rawReport_fault {fault : Fault} (h : (rawReport tree driver device reportData).result = .error fault) :
    ReportFault device reportData fault := by
  unfold rawReport at h
  split at h
  · next hprepare =>
    cases h
    exact prepare_fault hprepare
  · split at h
    · cases h
    · cases h
      exact .refused _

/-! ## Supported devices -/

theorem exists_request {generation : TdxDriver} (hkind : device.kind = .tdx generation)
    (hsupported : generation ≠ .deprecated) (data : Block reportDataSize) :
    ∃ sent, request device data = .ok sent ∧ sent.reportData = data := by
  unfold request
  rw [hkind]
  cases generation with
  | deprecated => exact absurd rfl hsupported
  | v1_0 => exact ⟨_, rfl, rfl⟩
  | v1_5 => exact ⟨_, rfl, rfl⟩

/-- A supported device is refused for the report data, or because it cannot be opened, or by the driver. -/
theorem rawReport_fault_of_supported {generation : TdxDriver} (hkind : device.kind = .tdx generation)
    (hsupported : generation ≠ .deprecated) {fault : Fault}
    (h : (rawReport tree driver device reportData).result = .error fault) :
    fault = .reportDataTooLong reportData.length ∨ (∃ cause, fault = .deviceUnopened device.path cause) ∨
      ∃ cause, fault = .reportRefused device.path cause := by
  unfold rawReport at h
  split at h
  · next hprepare =>
    cases h
    unfold prepare at hprepare
    cases hpad : padReportData reportData with
    | error e =>
      rw [hpad] at hprepare
      cases hprepare
      exact .inl (padReportData_eq_error hpad)
    | ok data =>
      obtain ⟨sent, hrequest, -⟩ := exists_request hkind hsupported data
      cases hopen : openNode tree device with
      | error e =>
        simp only [hpad, hrequest, hopen, Bind.bind, Except.bind] at hprepare
        cases hprepare
        exact .inr (.inl (openNode_eq_error hopen))
      | ok u => simp [hpad, hrequest, hopen, Bind.bind, Except.bind, Pure.pure, Except.pure] at hprepare
  · split at h
    · cases h
    · next cause _ =>
      cases h
      exact .inr (.inr ⟨cause, rfl⟩)

/-! ## The text of a report -/

theorem report_eq_error {fault : Fault} :
    (report tree driver device reportData).result = .error fault ↔
      (rawReport tree driver device reportData).result = .error fault := by
  rw [report, Inquiry.andThen]
  cases (rawReport tree driver device reportData).result <;> simp [Except.bind]

theorem report_eq_ok {text : String} :
    (report tree driver device reportData).result = .ok text ↔
      ∃ b, (rawReport tree driver device reportData).result = .ok b ∧ text = Base64.encode b.bytes := by
  rw [report, Inquiry.andThen]
  cases (rawReport tree driver device reportData).result <;> simp [Except.bind, eq_comm]

/-! ## The register -/

theorem register_of_not_le {index : Int} (h : ¬ (0 ≤ index ∧ index ≤ 3)) :
    register tree driver device reportData index = .ofResult (.error (.invalidRegister index)) := by
  rw [register, registerOffset_of_not_le h]

theorem register_of_le {index : Int} (h0 : 0 ≤ index) (h3 : index ≤ 3) :
    register tree driver device reportData index =
      (report tree driver device reportData).andThen (registerOfReport index) := by
  rw [register, registerOffset_of_le h0 h3]

theorem register_of_report {index : Int} (h0 : 0 ≤ index) (h3 : index ≤ 3) {text : String}
    (h : (report tree driver device reportData).result = .ok text) :
    ∃ b : Block TdReport.size, text = Base64.encode b.bytes ∧
      (register tree driver device reportData index).result =
        .ok (Base64.encode (registerBytes b.bytes index.toNat)) := by
  obtain ⟨b, -, rfl⟩ := report_eq_ok.1 h
  refine ⟨b, rfl, ?_⟩
  rw [register_of_le h0 h3, Inquiry.andThen, h]
  exact registerOfReport_encode h0 h3 b

theorem register_eq_error {index : Int} (h0 : 0 ≤ index) (h3 : index ≤ 3) {fault : Fault} :
    (register tree driver device reportData index).result = .error fault ↔
      (report tree driver device reportData).result = .error fault := by
  cases h : (report tree driver device reportData).result with
  | error e => simp [register_of_le h0 h3, Inquiry.andThen, h, Except.bind]
  | ok text =>
    obtain ⟨b, -, hb⟩ := register_of_report h0 h3 h
    simp [hb]

/-- **A register is a piece of the report.** One that does not exist is refused without a request. Otherwise the device is
asked for a report once: if there is none, there is no register for the same reason, and if there is one, the register
is the piece of it at the offset of the register, as the decoded report has it. What is wrong with the text or the length
of a report is never said of a register. -/
theorem register_extracts (tree : FileTree) (driver : Driver) (device : Device) (reportData : Bytes) (index : Int) :
    (¬ (0 ≤ index ∧ index ≤ 3) →
      register tree driver device reportData index = ⟨.error (.invalidRegister index), []⟩) ∧
    (0 ≤ index ∧ index ≤ 3 →
      (register tree driver device reportData index).requests = (report tree driver device reportData).requests ∧
      (∀ fault, (report tree driver device reportData).result = .error fault →
        (register tree driver device reportData index).result = .error fault) ∧
      ∀ text, (report tree driver device reportData).result = .ok text →
        ∃ raw piece decoded, Base64.decode? text = some raw ∧ raw.length = 1024 ∧
          (register tree driver device reportData index).result = .ok piece ∧
          Base64.decode? piece = some ((raw.drop (0x2d0 + 48 * index.toNat)).take 48) ∧
          TdReport.decode raw = .ok decoded ∧
          decoded.register index = .ok ((raw.drop (0x2d0 + 48 * index.toNat)).take 48)) ∧
    (∀ length, (register tree driver device reportData index).result ≠ .error (.malformedReport length)) ∧
    (register tree driver device reportData index).result ≠ .error .invalidReportEncoding := by
  have hfault {fault : Fault} (h : (register tree driver device reportData index).result = .error fault) :
      fault = .invalidRegister index ∨ ReportFault device reportData fault := by
    by_cases hindex : 0 ≤ index ∧ index ≤ 3
    · exact .inr (rawReport_fault (report_eq_error.1 ((register_eq_error hindex.1 hindex.2).1 h)))
    · rw [register_of_not_le hindex] at h
      cases h
      exact .inl rfl
  refine ⟨register_of_not_le, fun ⟨h0, h3⟩ => ⟨?_, ?_, ?_⟩, ?_, ?_⟩
  · rw [register_of_le h0 h3]
    rfl
  · exact fun fault h => (register_eq_error h0 h3).2 h
  · intro text h
    obtain ⟨b, rfl, hregister⟩ := register_of_report h0 h3 h
    exact ⟨b.bytes, _, TdReport.ofBlock b, Base64.decode?_encode _, b.length_eq, hregister, Base64.decode?_encode _,
      decode_of_length b.length_eq, register_ofBlock b h0 h3⟩
  · intro length h
    rcases hfault h with h | h <;> cases h
  · intro h
    rcases hfault h with h | h <;> cases h

/-- A report whose register 2 is marked. -/
def sampleReport : Block TdReport.size :=
  ⟨List.replicate 816 1 ++ List.replicate 48 2 ++ List.replicate 160 3, by decide +kernel⟩

/-- A guest with the node of the v1.0 driver. -/
def sampleGuest : FileTree := FileTree.empty.put ["g"] (.file [])

theorem register_extracts_sample :
    register sampleGuest .absent ⟨"/g", .tdx .v1_0⟩ [7] 4 = ⟨.error (.invalidRegister 4), []⟩ ∧
      (report sampleGuest (fun _ => .ok sampleReport) ⟨"/g", .tdx .v1_0⟩ [7]).result =
        .ok (Base64.encode sampleReport.bytes) ∧
      ∃ piece, (register sampleGuest (fun _ => .ok sampleReport) ⟨"/g", .tdx .v1_0⟩ [7] 2).result = .ok piece ∧
        Base64.decode? piece = some (List.replicate 48 2) := by
  have hselects : Selects sampleGuest { v1_0 := "/g" } .v1_0 "/g" := .v1_0 (by decide +kernel)
  have hopen : sampleGuest.openDevice "/g" = .ok () := by decide +kernel
  obtain ⟨sent, -, hraw⟩ := rawReport_cases hselects (show [7].length ≤ reportDataSize by decide)
  have hreport : (report sampleGuest (fun _ => .ok sampleReport) ⟨"/g", .tdx .v1_0⟩ [7]).result =
      .ok (Base64.encode sampleReport.bytes) := by
    refine report_eq_ok.2 ⟨sampleReport, ?_, rfl⟩
    rw [((hraw _).2 hopen).2 sampleReport rfl]
  have hmarked : (sampleReport.bytes.drop (0x2d0 + 48 * (2 : Int).toNat)).take 48 = List.replicate 48 2 := by
    decide +kernel
  obtain ⟨raw, piece, -, hdecoded, -, hpiece, hbytes, -⟩ :=
    ((register_extracts sampleGuest (fun _ => .ok sampleReport) ⟨"/g", .tdx .v1_0⟩ [7] 2).2.1 (by decide)).2.2 _ hreport
  obtain rfl : sampleReport.bytes = raw := by simpa [Base64.decode?_encode] using hdecoded
  refine ⟨?_, hreport, piece, hpiece, ?_⟩
  · exact (register_extracts sampleGuest .absent ⟨"/g", .tdx .v1_0⟩ [7] 4).1 (by decide)
  · rw [hbytes, hmarked]

end Attestation.Tdx
