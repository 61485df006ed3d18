import Attestation.Proofs.Bytes
import Attestation.Proofs.Device.Backend
import Attestation.Proofs.Device.Tdx
import Attestation.Service.Measurement

/-!
# When a measurement asks the driver

* `Admitted request` : the request alone does not stand against asking a driver;
* `getMeasurement_of_selects`, `getMeasurement_refused` : the two ways in which a measurement is served;
* `device_access` : the driver is asked at most once, exactly when the request is admitted and the selected node can be
  opened, and what it answers decides the reply.
-/

namespace Attestation.Service
open Tdx (Selects Asks find_eq_ok_iff)

variable {settings : Settings} {tree : FileTree} {driver : Driver} {request : MeasurementRequest}

/-! ## Checked requests -/

/-- A request for a report, or for one of the four registers of a TDX guest, with report data that fits. -/
def Admitted (request : MeasurementRequest) : Prop :=
  request.level = 1 ∧ 0 ≤ request.register ∧
    (request.category = 0 ∨ request.category = 1 ∧ request.register ≤ 3) ∧ request.reportData.utf8ByteSize ≤ 64

instance (request : MeasurementRequest) : Decidable (Admitted request) :=
  inferInstanceAs (Decidable (_ ∧ _ ∧ _ ∧ _))

/-- The measurement of a report: all of it, or a register. -/
def measured (request : MeasurementRequest) (report : Bytes) : Bytes :=
  if request.category = 0 then report else (report.drop (0x2d0 + 48 * request.register.toNat)).take 48

theorem length_measured (h : Admitted request) (report : Block TdReport.size) :
    (measured request report.bytes).length = if request.category = 0 then 1024 else 48 := by
  obtain ⟨-, hregister, hcategory, -⟩ := h
  have hlength : report.bytes.length = 1024 := report.length_eq
  rw [measured]
  split
  · exact hlength
  · next h0 =>
    have h3 : request.register ≤ 3 := (hcategory.resolve_left h0).2
    rw [List.length_take, List.length_drop, hlength]
    omega

theorem measurementCategory?_eq (request : MeasurementRequest) :
    measurementCategory? request =
      if request.register < 0 then .error (.invalidRequest (.negativeRegister request.register))
      else if request.level = 0 then .ok none
      else if request.level = 1 then (MeasurementCategory.ofNumber request.category).map some
      else .error (.invalidRequest (.unknownLevel request.level)) := by
  unfold measurementCategory? nonNegative Level.ofNumber
  split
  · rfl
  · split
    · rfl
    · split
      · simp only [Bind.bind, Except.bind]
        cases MeasurementCategory.ofNumber request.category <;> rfl
      · rfl

theorem measurementCategory?_eq_some {category : MeasurementCategory}
    (h : measurementCategory? request = .ok (some category)) :
    request.level = 1 ∧ 0 ≤ request.register ∧ MeasurementCategory.ofNumber request.category = .ok category := by
  rw [measurementCategory?_eq] at h
  split at h
  · cases h
  · next hregister =>
    split at h
    · cases h
    · split at h
      · next hlevel =>
        refine ⟨hlevel, Int.not_lt.1 hregister, ?_⟩
        cases hcategory : MeasurementCategory.ofNumber request.category with
        | error fault => rw [hcategory] at h; cases h
        | ok category' => rw [hcategory] at h; cases h; rfl
      · cases h

theorem measurementCategory?_ne_none (hlevel : request.level = 1) : measurementCategory? request ≠ .ok none := by
  rw [measurementCategory?_eq]
  split
  · simp
  · simp only [hlevel, one_ne_zero, if_false]
    cases MeasurementCategory.ofNumber request.category <;> simp [Except.map]

theorem measurementCategory?_of_level (hlevel : request.level = 1) (hregister : 0 ≤ request.register) :
    measurementCategory? request = (MeasurementCategory.ofNumber request.category).map some := by
  rw [measurementCategory?_eq, if_neg (Int.not_lt.2 hregister), if_neg (by rw [hlevel]; decide), if_pos hlevel]

theorem categoryOfNumber_eq_ok {value : Int} {category : MeasurementCategory}
    (h : MeasurementCategory.ofNumber value = .ok category) :
    value = 0 ∧ category = .teeReport ∨ value = 1 ∧ category = .tdxRegister ∨ value = 2 ∧ category = .tpm := by
  unfold MeasurementCategory.ofNumber at h
  split at h
  · next h0 => cases h; exact .inl ⟨h0, rfl⟩
  · split at h
    · next h1 => cases h; exact .inr (.inl ⟨h1, rfl⟩)
    · split at h
      · next h2 => cases h; exact .inr (.inr ⟨h2, rfl⟩)
      · cases h

/-! ## Reports -/

theorem teeReport_eq (nodes : DeviceNodes) (tree : FileTree) (driver : Driver) (reportData : Bytes) :
    teeReport nodes tree driver reportData =
      match Backend.findFirst tree (Backend.ofNodes nodes) with
      | .error fault => .ofResult (.error fault)
      | .ok device => Backend.reportFirst tree driver device reportData (Backend.ofNodes nodes) := rfl

theorem teeReport_of_find {nodes : DeviceNodes} {generation : TdxDriver} {node : String}
    (h : Tdx.find tree nodes.tdx = .ok ⟨node, .tdx generation⟩) (reportData : Bytes) :
    teeReport nodes tree driver reportData = Tdx.report tree driver ⟨node, .tdx generation⟩ reportData := by
  have hfind : Backend.findFirst tree (Backend.ofNodes nodes) = .ok ⟨node, .tdx generation⟩ :=
    Backend.findFirst_of_ok h
  rw [teeReport_eq, hfind]
  rfl

/-- Without a TDX node no driver is asked: the devices of the other technologies give no report. -/
theorem teeReport_of_error {nodes : DeviceNodes} {fault : Fault} (h : Tdx.find tree nodes.tdx = .error fault)
    (reportData : Bytes) : ∃ fault', teeReport nodes tree driver reportData = .ofResult (.error fault') := by
  rw [teeReport_eq]
  cases hfind : Backend.findFirst tree (Backend.ofNodes nodes) with
  | error fault' => exact ⟨fault', rfl⟩
  | ok device =>
    obtain ⟨backend, hmem, hbackend⟩ := Backend.exists_find_of_findFirst hfind
    obtain rfl | rfl : backend = .tdx nodes.tdx ∨ backend = .sev nodes.sev := by
      simpa [Backend.ofNodes] using hmem
    · rw [Backend.find, h] at hbackend
      cases hbackend
    · obtain ⟨-, -, hkind⟩ := Backend.firstNode_eq_ok hbackend
      refine ⟨.notImplemented .sevReport, ?_⟩
      simp [Backend.reportFirst, Backend.ofNodes, Backend.handles, Backend.report, hkind]

/-! ## Failing before a driver is asked -/

/-- A TDX node is found, and the report data fits into a request. -/
def Askable (tree : FileTree) (nodes : TdxNodes) (reportData : Bytes) : Prop :=
  reportData.length ≤ reportDataSize ∧ ∃ generation node, Tdx.find tree nodes = .ok ⟨node, .tdx generation⟩

theorem tooLong_of_not_askable {nodes : TdxNodes} {reportData : Bytes} {device : Device}
    (h : ¬ Askable tree nodes reportData) (hfind : Tdx.find tree nodes = .ok device) (driver : Driver) :
    Tdx.rawReport tree driver device reportData = .ofResult (.error (.reportDataTooLong reportData.length)) := by
  obtain ⟨-, generation, node, -, rfl⟩ := find_eq_ok_iff.1 hfind
  exact Tdx.rawReport_tooLong driver _ (Nat.not_le.1 fun hlength => h ⟨hlength, generation, node, hfind⟩)

theorem teeReport_fails {nodes : DeviceNodes} {reportData : Bytes} (h : ¬ Askable tree nodes.tdx reportData)
    (driver : Driver) : ∃ fault, teeReport nodes tree driver reportData = .ofResult (.error fault) := by
  cases hfind : Tdx.find tree nodes.tdx with
  | error fault => exact teeReport_of_error hfind reportData
  | ok device =>
    have hraw := tooLong_of_not_askable h hfind driver
    obtain ⟨-, generation, node, -, rfl⟩ := find_eq_ok_iff.1 hfind
    rw [teeReport_of_find hfind, Tdx.report, hraw]
    exact ⟨_, rfl⟩

theorem tdxRegister_fails {nodes : TdxNodes} {reportData : Bytes} {index : Int} (h0 : 0 ≤ index)
    (h : ¬ (index ≤ 3 ∧ Askable tree nodes reportData)) (driver : Driver) :
    ∃ fault, tdxRegister nodes tree driver reportData index = .ofResult (.error fault) := by
  unfold tdxRegister
  by_cases h3 : index ≤ 3
  · rw [Tdx.registerOffset_of_le h0 h3]
    cases hfind : Tdx.find tree nodes with
    | error fault => exact ⟨fault, rfl⟩
    | ok device =>
      have hraw := tooLong_of_not_askable (fun hask => h ⟨h3, hask⟩) hfind driver
      simp only [Tdx.register, Tdx.registerOffset_of_le h0 h3, Tdx.report, hraw]
      exact ⟨_, rfl⟩
  · rw [Tdx.registerOffset_of_not_le fun hc => h3 hc.2]
    exact ⟨_, rfl⟩

theorem tpmRegister_fails (nodes : TpmNodes) (tree : FileTree) (index : Int) :
    ∃ fault, tpmRegister nodes tree index = .error fault := by
  unfold tpmRegister
  cases (Backend.tpm nodes).find tree with
  | error fault => exact ⟨fault, rfl⟩
  | ok device => exact ⟨_, rfl⟩

/-! ## Measurements -/

/-- A measurement of the selected node: of its report, or of a register of it. -/
theorem getMeasurement_of_find {generation : TdxDriver} {node : String}
    (hfind : Tdx.find tree settings.devices.tdx = .ok ⟨node, .tdx generation⟩) (hlevel : request.level = 1)
    (hregister : 0 ≤ request.register)
    (hcategory : request.category = 0 ∨ request.category = 1 ∧ request.register ≤ 3) :
    getMeasurement settings tree driver request =
      ⟨((Tdx.rawReport tree driver ⟨node, .tdx generation⟩ (Bytes.ofText request.reportData)).result.map fun report =>
          Text.Base64.encode (measured request report.bytes)).mapError .evidence,
        (Tdx.rawReport tree driver ⟨node, .tdx generation⟩ (Bytes.ofText request.reportData)).requests⟩ := by
  have hchecked := measurementCategory?_of_level hlevel hregister
  rcases hcategory with h0 | ⟨h1, h3⟩
  · have hcategory : measurementCategory? request = .ok (some .teeReport) := by
      rw [hchecked, h0]
      rfl
    rw [getMeasurement, hcategory]
    simp only [guestMeasurement, teeReport_of_find hfind, Tdx.report, Inquiry.andThen]
    cases (Tdx.rawReport tree driver ⟨node, .tdx generation⟩ (Bytes.ofText request.reportData)).result with
    | error fault => rfl
    | ok report => simp [Except.bind, Except.map, measured, h0]
  · have hcategory : measurementCategory? request = .ok (some .tdxRegister) := by
      rw [hchecked, h1]
      rfl
    rw [getMeasurement, hcategory]
    simp only [guestMeasurement, tdxRegister, Tdx.registerOffset_of_le hregister h3, hfind, Tdx.register, Tdx.report,
      Inquiry.andThen]
    cases (Tdx.rawReport tree driver ⟨node, .tdx generation⟩ (Bytes.ofText request.reportData)).result with
    | error fault => rfl
    | ok report => simp [Except.bind, Except.map, measured, h1, Tdx.registerOfReport_encode hregister h3]

/-- Every other request is answered without a driver, and with no measurement of a guest. -/
theorem getMeasurement_refused (driver : Driver)
    (h : ¬ (Admitted request ∧ Askable tree settings.devices.tdx (Bytes.ofText request.reportData))) :
    (getMeasurement settings tree driver request).requests = [] ∧
      (request.level = 1 → ∃ fault, (getMeasurement settings tree driver request).result = .error fault) := by
  unfold getMeasurement
  split
  · next fault hfault => exact ⟨rfl, fun _ => ⟨fault, rfl⟩⟩
  · next hnone => exact ⟨rfl, fun hlevel => absurd hnone (measurementCategory?_ne_none hlevel)⟩
  · next category hcategory =>
    obtain ⟨hlevel, hregister, hnumber⟩ := measurementCategory?_eq_some hcategory
    have hadmitted : Askable tree settings.devices.tdx (Bytes.ofText request.reportData) →
        ¬ (request.category = 0 ∨ request.category = 1 ∧ request.register ≤ 3) := by
      intro hask hcategory
      refine h ⟨⟨hlevel, hregister, hcategory, ?_⟩, hask⟩
      rw [← Bytes.length_ofText]
      exact hask.1
    have hfail : ∃ fault, guestMeasurement settings tree driver category (Bytes.ofText request.reportData)
        request.register = .ofResult (.error fault) := by
      rcases categoryOfNumber_eq_ok hnumber with ⟨h0, rfl⟩ | ⟨h1, rfl⟩ | ⟨-, rfl⟩
      · exact teeReport_fails (fun hask => hadmitted hask (.inl h0)) driver
      · exact tdxRegister_fails hregister (fun hask => hadmitted hask.2 (.inr ⟨h1, hask.1⟩)) driver
      · obtain ⟨fault, hfault⟩ := tpmRegister_fails settings.devices.tpm tree request.register
        exact ⟨fault, by rw [guestMeasurement, hfault]⟩
    obtain ⟨fault, hfault⟩ := hfail
    simp only [hfault]
    exact ⟨rfl, fun _ => ⟨.evidence fault, rfl⟩⟩

/-! ## The driver -/

/-- What becomes of an admitted request when there is a node to ask. -/
theorem getMeasurement_of_selects (driver : Driver) {generation : TdxDriver} {node : String}
    (hadmitted : Admitted request) (hdeprecated : tree.exists? settings.devices.tdx.deprecated = false)
    (hselects : Selects tree settings.devices.tdx generation node) :
    (∀ cause, tree.openDevice node = .error cause → getMeasurement settings tree driver request =
        ⟨.error (.evidence (.deviceUnopened node cause)), []⟩) ∧
      (tree.openDevice node = .ok () →
        ∃ data sent, data.bytes = Bytes.ofText request.reportData ++
            List.replicate (64 - request.reportData.utf8ByteSize) 0 ∧ Asks data generation sent ∧
          (∀ cause, driver sent = .error cause → getMeasurement settings tree driver request =
            ⟨.error (.evidence (.reportRefused node cause)), [sent]⟩) ∧
          ∀ report, driver sent = .ok report → getMeasurement settings tree driver request =
            ⟨.ok (Text.Base64.encode (measured request report.bytes)), [sent]⟩) := by
  obtain ⟨hlevel, hregister, hcategory, hlength⟩ := hadmitted
  have hfind : Tdx.find tree settings.devices.tdx = .ok ⟨node, .tdx generation⟩ :=
    find_eq_ok_iff.2 ⟨hdeprecated, generation, node, hselects, rfl⟩
  rw [← Bytes.length_ofText] at hlength
  obtain ⟨sent, hasks, hraw⟩ := Tdx.rawReport_cases hselects hlength
  obtain ⟨hunopened, hopened⟩ := hraw driver
  rw [getMeasurement_of_find hfind hlevel hregister hcategory]
  refine ⟨fun cause hopen => ?_, fun hopen => ?_⟩
  · rw [hunopened cause hopen]
    rfl
  · obtain ⟨hrefused, hanswered⟩ := hopened hopen
    refine ⟨_, sent, ?_, hasks, fun cause hcause => ?_, fun report hreport => ?_⟩
    · rw [← Bytes.length_ofText]
      rfl
    · rw [hrefused cause hcause]
      rfl
    · rw [hanswered report hreport]
      rfl

/-- The driver can be asked for the request. -/
def Opens (settings : Settings) (tree : FileTree) (request : MeasurementRequest) : Prop :=
  Admitted request ∧ tree.exists? settings.devices.tdx.deprecated = false ∧
    ∃ generation node, Selects tree settings.devices.tdx generation node ∧ tree.openDevice node = .ok ()

/-- A measurement is made without the driver, or it is what the driver answers to one request. -/
theorem getMeasurement_cases (settings : Settings) (tree : FileTree) (driver : Driver) (request : MeasurementRequest) :
    (¬ Opens settings tree request ∧ (getMeasurement settings tree driver request).requests = [] ∧
        (request.level = 1 → ∃ fault, (getMeasurement settings tree driver request).result = .error fault)) ∨
      Opens settings tree request ∧ ∃ sent, (getMeasurement settings tree driver request).requests = [sent] ∧
        ((∃ fault, (getMeasurement settings tree driver request).result = .error fault) ∨
          ∃ report, driver sent = .ok report ∧ (getMeasurement settings tree driver request).result =
            .ok (Text.Base64.encode (measured request report.bytes))) := by
  by_cases hask : Admitted request ∧ Askable tree settings.devices.tdx (Bytes.ofText request.reportData)
  · obtain ⟨hadmitted, -, generation, node, hfind⟩ := hask
    obtain ⟨hdeprecated, generation', node', hselects, hdevice⟩ := find_eq_ok_iff.1 hfind
    cases hdevice
    obtain ⟨hunopened, hopened⟩ := getMeasurement_of_selects driver hadmitted hdeprecated hselects
    cases hopen : tree.openDevice node with
    | error cause =>
      refine .inl ⟨?_, ?_⟩
      · rintro ⟨-, -, generation', node', hselects', hopen'⟩
        obtain ⟨-, rfl⟩ := hselects.unique hselects'
        rw [hopen] at hopen'
        cases hopen'
      · rw [hunopened cause hopen]
        exact ⟨rfl, fun _ => ⟨_, rfl⟩⟩
    | ok u =>
      obtain ⟨data, sent, -, -, hrefused, hanswered⟩ := hopened hopen
      refine .inr ⟨⟨hadmitted, hdeprecated, generation, node, hselects, hopen⟩, sent, ?_⟩
      cases hdriver : driver sent with
      | error cause =>
        rw [hrefused cause hdriver]
        exact ⟨rfl, .inl ⟨_, rfl⟩⟩
      | ok report =>
        rw [hanswered report hdriver]
        exact ⟨rfl, .inr ⟨report, rfl, rfl⟩⟩
  · refine .inl ⟨?_, getMeasurement_refused driver hask⟩
    rintro ⟨hadmitted, hdeprecated, generation, node, hselects, -⟩
    refine hask ⟨hadmitted, ?_, generation, node, find_eq_ok_iff.2 ⟨hdeprecated, generation, node, hselects, rfl⟩⟩
    rw [Bytes.length_ofText]
    exact hadmitted.2.2.2

/-- **When the driver is asked.** A measurement asks the driver at most once. It does exactly when the request is
admitted, there is no deprecated node, and the selected node can be opened; then it asks in the layout of that node,
with the report data and zeros behind it. What the driver answers is the measurement, or the reason why there is none,
and without it no measurement of a guest is given. -/
theorem device_access (settings : Settings) (tree : FileTree) (driver : Driver) (request : MeasurementRequest) :
    (getMeasurement settings tree driver request).requests.length ≤ 1 ∧
    ((getMeasurement settings tree driver request).requests ≠ [] ↔
      Admitted request ∧ tree.exists? settings.devices.tdx.deprecated = false ∧
        ∃ generation node, Selects tree settings.devices.tdx generation node ∧ tree.openDevice node = .ok ()) ∧
    (∀ generation node, Admitted request → tree.exists? settings.devices.tdx.deprecated = false →
      Selects tree settings.devices.tdx generation node →
      (∀ cause, tree.openDevice node = .error cause → getMeasurement settings tree driver request =
        ⟨.error (.evidence (.deviceUnopened node cause)), []⟩) ∧
      (tree.openDevice node = .ok () →
        ∃ data sent, data.bytes = Bytes.ofText request.reportData ++
            List.replicate (64 - request.reportData.utf8ByteSize) 0 ∧ Asks data generation sent ∧
          (∀ cause, driver sent = .error cause → getMeasurement settings tree driver request =
            ⟨.error (.evidence (.reportRefused node cause)), [sent]⟩) ∧
          ∀ report, driver sent = .ok report → getMeasurement settings tree driver request =
            ⟨.ok (Text.Base64.encode (measured request report.bytes)), [sent]⟩)) ∧
    (request.level = 1 → ∀ reply, (getMeasurement settings tree driver request).result = .ok reply →
      ∃ sent report, (getMeasurement settings tree driver request).requests = [sent] ∧ driver sent = .ok report ∧
        reply = Text.Base64.encode (measured request report.bytes) ∧
        (measured request report.bytes).length = if request.category = 0 then 1024 else 48) := by
  refine ⟨?_, ?_, fun generation node => getMeasurement_of_selects driver, fun hlevel reply hreply => ?_⟩
  · rcases getMeasurement_cases settings tree driver request with ⟨-, hnone, -⟩ | ⟨-, sent, hsent, -⟩
    · rw [hnone]
      exact Nat.zero_le 1
    · rw [hsent]
      exact Nat.le_refl 1
  · rcases getMeasurement_cases settings tree driver request with ⟨hopens, hnone, -⟩ | ⟨hopens, sent, hsent, -⟩
    · exact ⟨fun h => absurd hnone h, fun h => absurd h hopens⟩
    · exact ⟨fun _ => hopens, fun _ => by simp [hsent]⟩
  · rcases getMeasurement_cases settings tree driver request with ⟨-, -, hfails⟩ | ⟨hopens, sent, hsent, hresult⟩
    · obtain ⟨fault, hfault⟩ := hfails hlevel
      rw [hfault] at hreply
      cases hreply
    · rcases hresult with ⟨fault, hfault⟩ | ⟨report, hreport, hresult⟩
      · rw [hfault] at hreply
        cases hreply
      · rw [hresult] at hreply
        cases hreply
        exact ⟨sent, report, hsent, hreport, rfl, length_measured hopens.1 report⟩

/-- A tree with a node of the v1.5 driver. -/
def guestTree : FileTree := (FileTree.empty.put ["dev"] .directory).put ["dev", "tdx_guest"] (.file [])

/-- A register is asked for at that node, behind which there is no driver. -/
theorem device_access_sample :
    Admitted ⟨1, 1, "ab", 2⟩ ∧ Selects guestTree {} .v1_5 "/dev/tdx_guest" ∧
      guestTree.openDevice "/dev/tdx_guest" = .ok () ∧
      ∃ data sent, data.bytes = Bytes.ofText "ab" ++ List.replicate 62 0 ∧ Asks data .v1_5 sent ∧
        getMeasurement {} guestTree .absent ⟨1, 1, "ab", 2⟩ =
          ⟨.error (.evidence (.reportRefused "/dev/tdx_guest" .notADevice)), [sent]⟩ := by
  have hadmitted : Admitted ⟨1, 1, "ab", 2⟩ := by decide +kernel
  have hselects : Selects guestTree {} .v1_5 "/dev/tdx_guest" := .v1_5 (by decide +kernel) (by decide +kernel)
  have hopen : guestTree.openDevice "/dev/tdx_guest" = .ok () := by decide +kernel
  obtain ⟨-, -, hasked, -⟩ := device_access {} guestTree .absent ⟨1, 1, "ab", 2⟩
  obtain ⟨data, sent, hdata, hasks, hrefused, -⟩ :=
    (hasked .v1_5 "/dev/tdx_guest" hadmitted (by decide +kernel) hselects).2 hopen
  exact ⟨hadmitted, hselects, hopen, data, sent, hdata, hasks, hrefused .notADevice rfl⟩

end Attestation.Service
