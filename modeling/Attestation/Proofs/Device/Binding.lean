import Attestation.Proofs.Device.Register
import Attestation.Proofs.TdReport.Partition
import Mathlib.Data.List.DropRight

/-!
# Reports are bound to their report data

* `padded_eq_iff` : what is left of report data that was padded with zeros;
* `RequestMemory.reportData_ofRequest` : both layouts hand over the same report data;
* `Kernel.Fills kernel template` : the kernel leaves a fixed report behind, with the report data that it finds;
* `bytes_reportData` : where a decoded report has its report data;
* `report_binds` : the reply to report data, from either driver.
-/

namespace Attestation

/-! ## Padding -/

section Padding
variable {n : Nat} {xs ys : Bytes}

theorem rdropWhile_append_zeros (xs : Bytes) (k : Nat) :
    (xs ++ List.replicate k 0).rdropWhile (· = 0) = xs.rdropWhile (· = 0) := by
  have hzeros : ∀ b ∈ List.replicate k (0 : UInt8), decide (b = 0) = true := by
    intro b hb
    simpa using List.eq_of_mem_replicate hb
  rw [List.rdropWhile, List.reverse_append, List.reverse_replicate, List.dropWhile_append_of_pos hzeros,
    List.rdropWhile]

/-- Padding makes up for the zeros at the end. -/
theorem padded_rdropWhile (hlength : xs.length ≤ n) :
    xs ++ List.replicate (n - xs.length) 0 =
      xs.rdropWhile (· = 0) ++ List.replicate (n - (xs.rdropWhile (· = 0)).length) 0 := by
  have hzeros : xs.rtakeWhile (· = 0) = List.replicate (xs.rtakeWhile (· = 0)).length 0 :=
    List.eq_replicate_iff.2 ⟨rfl, fun b hb => by simpa using List.mem_rtakeWhile_imp hb⟩
  have hsplit : xs.rdropWhile (· = 0) ++ xs.rtakeWhile (· = 0) = xs := List.rdropWhile_append_rtakeWhile
  have hcount : (xs.rtakeWhile (· = 0)).length + (n - xs.length) = n - (xs.rdropWhile (· = 0)).length := by
    have hsum := congrArg List.length hsplit
    rw [List.length_append] at hsum
    omega
  calc
    xs ++ List.replicate (n - xs.length) 0
      = (xs.rdropWhile (· = 0) ++ xs.rtakeWhile (· = 0)) ++ List.replicate (n - xs.length) 0 := by rw [hsplit]
    _ = xs.rdropWhile (· = 0) ++ List.replicate (n - (xs.rdropWhile (· = 0)).length) 0 := by
      rw [hzeros, List.append_assoc, List.replicate_append_replicate, hcount]

/-- Padded byte strings are the same if the strings are without the zeros at their ends. -/
theorem padded_eq_iff (hxs : xs.length ≤ n) (hys : ys.length ≤ n) :
    Block.padded n xs hxs = Block.padded n ys hys ↔ xs.rdropWhile (· = 0) = ys.rdropWhile (· = 0) := by
  constructor
  · intro h
    have hbytes := congrArg (fun b : Block n => b.bytes.rdropWhile (· = 0)) h
    simpa only [Block.padded, rdropWhile_append_zeros] using hbytes
  · intro h
    ext1
    change xs ++ List.replicate (n - xs.length) 0 = ys ++ List.replicate (n - ys.length) 0
    rw [padded_rdropWhile hxs, padded_rdropWhile hys, h]

end Padding

/-! ## The memory of a request -/

theorem RequestMemory.reportData_ofRequest (sent : DriverRequest) : (ofRequest sent).reportData = sent.reportData := by
  cases sent with
  | descriptor subtype data reportDataLength reportLength => rfl
  | inPlace data => exact congrArg Prod.fst (Block.split_append data (Block.zeros TdReport.size))

theorem RequestMemory.report_fill (memory : RequestMemory) (report : Block TdReport.size) :
    (memory.fill report).report = report := by
  cases memory with
  | separate data old => rfl
  | contiguous buffer => exact congrArg Prod.snd (Block.split_append (buffer.split reportDataSize).1 report)

/-- The kernel leaves the template behind as the report, with the report data that it finds in the memory. -/
def Kernel.Fills (kernel : Kernel) (template : Block TdReport.size) : Prop :=
  ∀ sent memory, ∃ after, kernel sent memory = .ok after ∧
    after.report.bytes = template.bytes.take 128 ++ memory.reportData.bytes ++ template.bytes.drop 192

theorem Kernel.fills_filling (template : Block TdReport.size) : (Kernel.filling template).Fills template :=
  fun _ memory => ⟨_, rfl, congrArg Block.bytes (memory.report_fill _)⟩

theorem Driver.ofKernel_of_fills {kernel : Kernel} {template : Block TdReport.size} (hfills : kernel.Fills template)
    (sent : DriverRequest) : ofKernel kernel sent = .ok (withReportData template sent.reportData) := by
  obtain ⟨after, hafter, hreport⟩ := hfills sent (.ofRequest sent)
  rw [RequestMemory.reportData_ofRequest] at hreport
  have hreport : after.report = withReportData template sent.reportData := Block.ext hreport
  rw [ofKernel, hafter, ← hreport]
  rfl

/-! ## Report data in a report -/

theorem TdReport.bytes_reportData (b : Block size) : (ofBlock b).mac.reportData.bytes = (b.bytes.drop 128).take 64 := by
  have hcut : (ofBlock b).mac.reportData.bytes =
      ((((((b.bytes.take 256).drop 4).drop 12).drop 16).drop 48).drop 48).take 64 := rfl
  rw [hcut]
  simp only [List.drop_drop, List.drop_take, List.take_take]
  rfl

section WithReportData
variable (template : Block TdReport.size) (data : Block reportDataSize)

theorem length_take_template (template : Block TdReport.size) : (template.bytes.take 128).length = 128 := by
  rw [List.length_take, template.length_eq]
  rfl

theorem Driver.take_withReportData : (withReportData template data).bytes.take 128 = template.bytes.take 128 := by
  simp only [withReportData, reportDataOffset, List.append_assoc]
  exact List.take_left' (length_take_template template)

theorem Driver.drop_reportDataOffset :
    (withReportData template data).bytes.drop 128 = data.bytes ++ template.bytes.drop 192 := by
  simp only [withReportData, reportDataOffset, List.append_assoc]
  exact List.drop_left' (length_take_template template)

theorem Driver.reportData_withReportData :
    ((withReportData template data).bytes.drop 128).take 64 = data.bytes := by
  rw [drop_reportDataOffset]
  exact List.take_left' data.length_eq

theorem Driver.drop_withReportData : (withReportData template data).bytes.drop 192 = template.bytes.drop 192 := by
  rw [← List.drop_drop (i := 64) (j := 128), drop_reportDataOffset]
  exact List.drop_left' data.length_eq

theorem Driver.withReportData_injective (template : Block TdReport.size) :
    Function.Injective (withReportData template) := by
  intro data data' h
  exact Block.ext (by rw [← reportData_withReportData template data, h, reportData_withReportData])

end WithReportData

namespace Tdx
open Text Driver

variable {kernel : Kernel} {template : Block TdReport.size} {tree : FileTree} {node : String} {generation : TdxDriver}
  {reportData : Bytes}

theorem report_tooLong (driver : Driver) (device : Device) (h : reportDataSize < reportData.length) :
    report tree driver device reportData = .ofResult (.error (.reportDataTooLong reportData.length)) := by
  rw [report, rawReport_tooLong driver device h]
  rfl

/-- A supported device that can be opened replies with the template, bound to the report data. -/
theorem report_of_fills (hfills : kernel.Fills template) (hopen : tree.openDevice node = .ok ())
    (hsupported : generation ≠ .deprecated) (hlength : reportData.length ≤ reportDataSize) :
    (report tree (ofKernel kernel) ⟨node, .tdx generation⟩ reportData).result =
      .ok (Base64.encode (withReportData template (.padded reportDataSize reportData hlength)).bytes) := by
  obtain ⟨sent, hrequest, hsent⟩ := exists_request (show (Device.mk node (.tdx generation)).kind = _ from rfl)
    hsupported (.padded reportDataSize reportData hlength)
  have hprepare : prepare tree ⟨node, .tdx generation⟩ reportData = .ok sent := by
    rw [prepare_of_request hlength hrequest, openNode, hopen]
    rfl
  have hreply := ofKernel_of_fills hfills sent
  rw [hsent] at hreply
  refine report_eq_ok.2 ⟨_, ?_, rfl⟩
  rw [rawReport, hprepare]
  simp only [hreply]

theorem report_eq_iff (hfills : kernel.Fills template) (hopen : tree.openDevice node = .ok ())
    (hsupported : generation ≠ .deprecated) {other : Bytes} (hlength : reportData.length ≤ reportDataSize)
    (hother : other.length ≤ reportDataSize) :
    (report tree (ofKernel kernel) ⟨node, .tdx generation⟩ reportData).result =
        (report tree (ofKernel kernel) ⟨node, .tdx generation⟩ other).result ↔
      reportData.rdropWhile (· = 0) = other.rdropWhile (· = 0) := by
  rw [report_of_fills hfills hopen hsupported hlength, report_of_fills hfills hopen hsupported hother,
    ← padded_eq_iff hlength hother]
  constructor
  · intro h
    have hdecoded := congrArg Base64.decode? (Except.ok.inj h)
    rw [Base64.decode?_encode, Base64.decode?_encode] at hdecoded
    exact withReportData_injective template (Block.ext (Option.some.inj hdecoded))
  · intro h
    rw [h]

/-- **Reports are bound to their report data.** Too long report data is refused, whatever the tree and the driver, and
no request is issued for it. Otherwise the reply holds a report of 1024 bytes, which has the report data with zeros
behind it in its place, also when it is decoded, and every other byte from the driver. So replies are the same exactly
for report data that is the same without the zeros at its end, and both drivers reply the same. -/
theorem report_binds (hfills : kernel.Fills template) (hopen : tree.openDevice node = .ok ())
    (hsupported : generation ≠ .deprecated) :
    (∀ reportData : Bytes, 64 < reportData.length → ∀ (tree' : FileTree) (driver : Driver),
      report tree' driver ⟨node, .tdx generation⟩ reportData = ⟨.error (.reportDataTooLong reportData.length), []⟩) ∧
    (∀ reportData : Bytes, reportData.length ≤ 64 →
      ∃ reply raw decoded, (report tree (ofKernel kernel) ⟨node, .tdx generation⟩ reportData).result = .ok reply ∧
        Base64.decode? reply = some raw ∧ raw.length = 1024 ∧
        (raw.drop 128).take 64 = reportData ++ List.replicate (64 - reportData.length) 0 ∧
        raw.take 128 = template.bytes.take 128 ∧ raw.drop 192 = template.bytes.drop 192 ∧
        TdReport.decode raw = .ok decoded ∧
        decoded.mac.reportData.bytes = reportData ++ List.replicate (64 - reportData.length) 0) ∧
    (∀ reportData other : Bytes, reportData.length ≤ 64 → other.length ≤ 64 →
      ((report tree (ofKernel kernel) ⟨node, .tdx generation⟩ reportData).result =
          (report tree (ofKernel kernel) ⟨node, .tdx generation⟩ other).result ↔
        reportData.rdropWhile (· = 0) = other.rdropWhile (· = 0))) ∧
    ∀ reportData : Bytes, (report tree (ofKernel kernel) ⟨node, .tdx .v1_0⟩ reportData).result =
      (report tree (ofKernel kernel) ⟨node, .tdx .v1_5⟩ reportData).result := by
  refine ⟨fun reportData hlength tree' driver => report_tooLong driver _ hlength, fun reportData hlength => ?_,
    fun reportData other hlength hother => report_eq_iff hfills hopen hsupported hlength hother,
    fun reportData => ?_⟩
  · obtain ⟨data, hdata, hbound⟩ : ∃ data : Block reportDataSize,
        data.bytes = reportData ++ List.replicate (64 - reportData.length) 0 ∧
        (report tree (ofKernel kernel) ⟨node, .tdx generation⟩ reportData).result =
          .ok (Base64.encode (withReportData template data).bytes) :=
      ⟨.padded reportDataSize reportData hlength, rfl, report_of_fills hfills hopen hsupported hlength⟩
    have hfield := reportData_withReportData template data
    rw [hdata] at hfield
    refine ⟨_, _, _, hbound, Base64.decode?_encode _, (withReportData template data).length_eq, hfield,
      take_withReportData template data, drop_withReportData template data,
      TdReport.decode_of_length (withReportData template data).length_eq, ?_⟩
    rw [TdReport.bytes_reportData]
    exact hfield
  · by_cases hlength : reportData.length ≤ reportDataSize
    · rw [report_of_fills hfills hopen (by decide) hlength, report_of_fills hfills hopen (by decide) hlength]
    · rw [report_tooLong _ _ (Nat.not_le.1 hlength), report_tooLong _ _ (Nat.not_le.1 hlength)]

theorem report_binds_sample :
    report sampleGuest .absent ⟨"/g", .tdx .v1_5⟩ (List.replicate 65 7) = ⟨.error (.reportDataTooLong 65), []⟩ ∧
      (report sampleGuest (.filling sampleReport) ⟨"/g", .tdx .v1_5⟩ [7]).result =
        (report sampleGuest (.filling sampleReport) ⟨"/g", .tdx .v1_5⟩ [7, 0]).result ∧
      (report sampleGuest (.filling sampleReport) ⟨"/g", .tdx .v1_5⟩ [7]).result ≠
        (report sampleGuest (.filling sampleReport) ⟨"/g", .tdx .v1_5⟩ [0, 7]).result ∧
      ∃ reply raw decoded, (report sampleGuest (.filling sampleReport) ⟨"/g", .tdx .v1_5⟩ [7]).result = .ok reply ∧
        Base64.decode? reply = some raw ∧ TdReport.decode raw = .ok decoded ∧
        decoded.mac.reportData.bytes = 7 :: List.replicate 63 0 := by
  obtain ⟨htooLong, hbound, hsame, -⟩ := report_binds (Kernel.fills_filling sampleReport)
    (show sampleGuest.openDevice "/g" = .ok () by decide +kernel) (show TdxDriver.v1_5 ≠ .deprecated by decide)
  obtain ⟨reply, raw, decoded, hreply, hraw, -, -, -, -, hdecoded, hdata⟩ := hbound [7] (by decide)
  refine ⟨?_, ?_, ?_, reply, raw, decoded, hreply, hraw, hdecoded, hdata⟩
  · exact htooLong (List.replicate 65 7) (by decide) sampleGuest .absent
  · exact (hsame [7] [7, 0] (by decide) (by decide)).2 (by decide)
  · exact fun h => absurd ((hsame [7] [0, 7] (by decide) (by decide)).1 h) (by decide)

end Tdx

end Attestation
