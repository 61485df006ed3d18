import Attestation.Proofs.Ccel.Locate
import Attestation.Proofs.Device.Backend
import Attestation.Proofs.Device.Tdx
import Attestation.Service.EventLog
import Attestation.Service.Measurement

/-!
# What a service takes from the file tree

* `Settings.inputs` : the paths at which evidence is looked for;
* `SameEvidence t u` : what exists there is the same in both trees, and reads the same;
* `SameEvidence.eventLogDocument`, `SameEvidence.getMeasurement` : then documents and measurements are the same.
-/

namespace Attestation

/-- Where evidence is looked for. -/
def Settings.inputs (settings : Settings) : List String :=
  [settings.ccel.table, settings.ccel.tableMount, settings.ccel.data, settings.ccel.dataMount,
    settings.devices.tdx.deprecated, settings.devices.tdx.v1_0, settings.devices.tdx.v1_5,
    settings.devices.sev.guest, settings.devices.sev.legacy, settings.devices.sgx.device,
    settings.devices.tpm.device, settings.devices.tpm.eventLog]

/-- Both trees have the same evidence. -/
structure SameEvidence (settings : Settings) (t u : FileTree) : Prop where
  exists? : ∀ path ∈ settings.inputs, t.exists? path = u.exists? path
  read : ∀ path ∈ settings.inputs, t.exists? path = true → t.read path = u.read path
  eventLog : t.read settings.devices.tpm.eventLog = u.read settings.devices.tpm.eventLog

section Evidence
variable {settings : Settings} {t u : FileTree}

theorem SameEvidence.refl (settings : Settings) (t : FileTree) : SameEvidence settings t t :=
  ⟨fun _ _ => rfl, fun _ _ _ => rfl, rfl⟩

/-! ## Event logs -/

theorem SameEvidence.readFirst (h : SameEvidence settings t u) {candidates : List String}
    (hsub : candidates ⊆ settings.inputs) : Ccel.readFirst t candidates = Ccel.readFirst u candidates :=
  Ccel.readFirst_congr (fun path hpath => h.exists? path (hsub hpath)) fun path hpath => h.read path (hsub hpath)

theorem SameEvidence.locate (h : SameEvidence settings t u) :
    Ccel.locate t settings.ccel = Ccel.locate u settings.ccel := by
  have htable : Ccel.readFirst t [settings.ccel.tableMount, settings.ccel.table] =
      Ccel.readFirst u [settings.ccel.tableMount, settings.ccel.table] := h.readFirst (by simp [Settings.inputs])
  have hdata : Ccel.readFirst t [settings.ccel.dataMount, settings.ccel.data] =
      Ccel.readFirst u [settings.ccel.dataMount, settings.ccel.data] := h.readFirst (by simp [Settings.inputs])
  simp only [Ccel.locate_eq, Ccel.readTable, Ccel.readData, htable, hdata]

theorem SameEvidence.tpmEventLog (h : SameEvidence settings t u) (start count : Nat) :
    Tpm.eventLog t settings.devices.tpm start count = Tpm.eventLog u settings.devices.tpm start count := by
  rw [Tpm.eventLog, Tpm.eventLog, h.eventLog]

theorem SameEvidence.eventLogDocument (h : SameEvidence settings t u) (request : EventLogRequest) :
    Service.eventLogDocument settings t request = Service.eventLogDocument settings u request := by
  have hguest : ∀ category start count, Service.guestEventLog settings t category start count =
      Service.guestEventLog settings u category start count := by
    intro category start count
    cases category with
    | tdx => simp only [Service.guestEventLog, Service.ccelDocument, h.locate]
    | tpm => exact h.tpmEventLog start count
  simp only [Service.eventLogDocument, hguest]

/-! ## Measurements -/

theorem SameEvidence.find (h : SameEvidence settings t u) {backend : Backend}
    (hmem : backend ∈ Backend.tpm settings.devices.tpm :: Backend.ofNodes settings.devices) :
    backend.find t = backend.find u := by
  have hnode : ∀ kind paths, paths ⊆ settings.inputs →
      Backend.firstNode t kind paths = Backend.firstNode u kind paths := by
    intro kind paths hsub
    rw [Backend.firstNode, Backend.firstNode, List.find?_congr fun path hpath => h.exists? path (hsub hpath)]
  simp only [Backend.ofNodes, List.mem_cons, List.not_mem_nil, or_false] at hmem
  rcases hmem with rfl | rfl | rfl
  · exact hnode _ _ (by simp [Settings.inputs])
  · simp only [Backend.find, Tdx.find]
    rw [h.exists? settings.devices.tdx.deprecated (by simp [Settings.inputs]),
      h.exists? settings.devices.tdx.v1_0 (by simp [Settings.inputs]),
      h.exists? settings.devices.tdx.v1_5 (by simp [Settings.inputs])]
  · exact hnode _ _ (by simp [Settings.inputs])

theorem Backend.findFirst_congr {backends : List Backend} (h : ∀ backend ∈ backends, backend.find t = backend.find u) :
    findFirst t backends = findFirst u backends := by
  induction backends with
  | nil => rfl
  | cons backend rest ih =>
    rw [findFirst, findFirst, h backend List.mem_cons_self, ih fun b hb => h b (List.mem_cons_of_mem _ hb)]

/-- What is found is a node that exists. -/
theorem Backend.exists?_of_find {backend : Backend} {device : Device}
    (hmem : backend ∈ Backend.ofNodes settings.devices) (h : backend.find t = .ok device) :
    device.path ∈ settings.inputs ∧ t.exists? device.path = true := by
  simp only [ofNodes, List.mem_cons, List.not_mem_nil, or_false] at hmem
  rcases hmem with rfl | rfl
  · obtain ⟨-, generation, node, hselects, rfl⟩ := Tdx.find_eq_ok_iff.1 h
    cases hselects with
    | v1_0 h0 => exact ⟨by simp [Settings.inputs], h0⟩
    | v1_5 _ h5 => exact ⟨by simp [Settings.inputs], h5⟩
  · obtain ⟨hpath, hexists, -⟩ := firstNode_eq_ok h
    refine ⟨?_, hexists⟩
    simp only [List.mem_cons, List.not_mem_nil, or_false] at hpath
    rcases hpath with hpath | hpath <;> simp [hpath, Settings.inputs]

theorem Tdx.rawReport_congr {device : Device} (h : t.read device.path = u.read device.path) (driver : Driver)
    (reportData : Bytes) : rawReport t driver device reportData = rawReport u driver device reportData := by
  have hopen : openNode t device = openNode u device := by
    rw [openNode, openNode, FileTree.openDevice, FileTree.openDevice, h]
  simp only [rawReport, prepare, hopen]

theorem Backend.reportFirst_congr {device : Device} (h : t.read device.path = u.read device.path) (driver : Driver)
    (reportData : Bytes) (backends : List Backend) :
    reportFirst t driver device reportData backends = reportFirst u driver device reportData backends := by
  unfold reportFirst
  cases backends.find? (·.handles device.kind) with
  | none => rfl
  | some backend =>
    cases backend with
    | tdx nodes => simp only [report, Tdx.report, Tdx.rawReport_congr h]
    | sev nodes => rfl
    | sgx nodes => rfl
    | tpm nodes => rfl

theorem SameEvidence.teeReport (h : SameEvidence settings t u) (driver : Driver) (reportData : Bytes) :
    Service.teeReport settings.devices t driver reportData =
      Service.teeReport settings.devices u driver reportData := by
  have hfind : Backend.findFirst t (Backend.ofNodes settings.devices) =
      Backend.findFirst u (Backend.ofNodes settings.devices) :=
    Backend.findFirst_congr fun backend hmem => h.find (List.mem_cons_of_mem _ hmem)
  simp only [Service.teeReport, ← hfind]
  cases hfound : Backend.findFirst t (Backend.ofNodes settings.devices) with
  | error fault => rfl
  | ok device =>
    obtain ⟨backend, hmem, hbackend⟩ := Backend.exists_find_of_findFirst hfound
    obtain ⟨hpath, hexists⟩ := Backend.exists?_of_find hmem hbackend
    exact Backend.reportFirst_congr (h.read _ hpath hexists) driver reportData _

theorem SameEvidence.tdxRegister (h : SameEvidence settings t u) (driver : Driver) (reportData : Bytes) (index : Int) :
    Service.tdxRegister settings.devices.tdx t driver reportData index =
      Service.tdxRegister settings.devices.tdx u driver reportData index := by
  have hmem : Backend.tdx settings.devices.tdx ∈ Backend.ofNodes settings.devices := by simp [Backend.ofNodes]
  have hfind : Tdx.find t settings.devices.tdx = Tdx.find u settings.devices.tdx :=
    h.find (List.mem_cons_of_mem _ hmem)
  simp only [Service.tdxRegister, ← hfind]
  cases hfound : Tdx.find t settings.devices.tdx with
  | error fault => rfl
  | ok device =>
    obtain ⟨hpath, hexists⟩ := Backend.exists?_of_find hmem hfound
    simp only [Tdx.register, Tdx.report, Tdx.rawReport_congr (h.read _ hpath hexists)]

theorem SameEvidence.getMeasurement (h : SameEvidence settings t u) (driver : Driver) (request : MeasurementRequest) :
    Service.getMeasurement settings t driver request = Service.getMeasurement settings u driver request := by
  have hguest : ∀ category reportData index,
      Service.guestMeasurement settings t driver category reportData index =
        Service.guestMeasurement settings u driver category reportData index := by
    intro category reportData index
    cases category with
    | teeReport => exact h.teeReport driver reportData
    | tdxRegister => exact h.tdxRegister driver reportData index
    | tpm => simp only [Service.guestMeasurement, Service.tpmRegister, h.find List.mem_cons_self]
  simp only [Service.getMeasurement, hguest]

end Evidence

end Attestation
