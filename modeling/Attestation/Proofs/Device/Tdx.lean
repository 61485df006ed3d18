import Attestation.Device.Backend
import Attestation.Proofs.TdReport.Register
import Attestation.Proofs.Text.Base64

/-!
# Asking a TDX device

* `Tdx.Selects` : the node that is asked, and the driver behind it; `find_eq_ok_iff` says that it is what is found;
* `Tdx.Asks driver data sent` : `sent` is the request for a report in the layout that the driver takes;
* `rawReport_cases` : how asking a device can end, and what was sent then;
* `registerOfReport_encode` : a register of a report, from its base64 text.
-/

namespace Attestation.Tdx

variable {tree : FileTree} {nodes : TdxNodes}

/-! ## The node -/

/-- The v1.0 node is asked if it exists, else the v1.5 node if it exists. -/
inductive Selects (tree : FileTree) (nodes : TdxNodes) : TdxDriver → String → Prop where
  | v1_0 (h : tree.exists? nodes.v1_0 = true) : Selects tree nodes .v1_0 nodes.v1_0
  | v1_5 (h0 : tree.exists? nodes.v1_0 = false) (h5 : tree.exists? nodes.v1_5 = true) :
      Selects tree nodes .v1_5 nodes.v1_5

theorem Selects.unique {generation generation' : TdxDriver} {node node' : String}
    (h : Selects tree nodes generation node) (h' : Selects tree nodes generation' node') :
    generation = generation' ∧ node = node' := by
  cases h with
  | v1_0 h =>
    cases h' with
    | v1_0 _ => exact ⟨rfl, rfl⟩
    | v1_5 h0 _ => rw [h] at h0; cases h0
  | v1_5 h0 _ =>
    cases h' with
    | v1_0 h => rw [h] at h0; cases h0
    | v1_5 _ _ => exact ⟨rfl, rfl⟩

theorem find_eq_ok_iff {device : Device} :
    find tree nodes = .ok device ↔ tree.exists? nodes.deprecated = false ∧
      ∃ generation node, Selects tree nodes generation node ∧ device = ⟨node, .tdx generation⟩ := by
  unfold find
  constructor
  · intro h
    split at h
    · cases h
    · next hdeprecated =>
      refine ⟨by simpa using hdeprecated, ?_⟩
      split at h
      · next h0 =>
        cases h
        exact ⟨_, _, .v1_0 h0, rfl⟩
      · next h0 =>
        split at h
        · next h5 =>
          cases h
          exact ⟨_, _, .v1_5 (by simpa using h0) h5, rfl⟩
        · cases h
  · rintro ⟨hdeprecated, generation, node, hselects, rfl⟩
    cases hselects with
    | v1_0 h0 => simp [hdeprecated, h0]
    | v1_5 h0 h5 => simp [hdeprecated, h0, h5]

/-! ## The request -/

/-- The request for a report bound to `data`, in the layout that the driver takes. -/
inductive Asks (data : Block reportDataSize) : TdxDriver → DriverRequest → Prop where
  | v1_0 : Asks data .v1_0 (.descriptor 0 data 64 1024)
  | v1_5 : Asks data .v1_5 (.inPlace data)

theorem exists_asks {generation : TdxDriver} {node : String} (h : Selects tree nodes generation node)
    (data : Block reportDataSize) :
    ∃ sent, Asks data generation sent ∧ request ⟨node, .tdx generation⟩ data = .ok sent := by
  cases h with
  | v1_0 _ => exact ⟨_, .v1_0, rfl⟩
  | v1_5 _ _ => exact ⟨_, .v1_5, rfl⟩

theorem rawReport_tooLong (driver : Driver) (device : Device) {reportData : Bytes}
    (h : reportDataSize < reportData.length) :
    rawReport tree driver device reportData = .ofResult (.error (.reportDataTooLong reportData.length)) := by
  have hpad : padReportData reportData = .error (.reportDataTooLong reportData.length) := dif_neg (Nat.not_le.2 h)
  have hprepare : prepare tree device reportData = .error (.reportDataTooLong reportData.length) := by
    unfold prepare
    rw [hpad]
    rfl
  rw [rawReport, hprepare]

theorem prepare_of_request {device : Device} {reportData : Bytes} (hlength : reportData.length ≤ reportDataSize)
    {sent : DriverRequest} (hrequest : request device (.padded reportDataSize reportData hlength) = .ok sent) :
    prepare tree device reportData = (openNode tree device).map fun _ => sent := by
  have hpad : padReportData reportData = .ok (.padded reportDataSize reportData hlength) := dif_pos hlength
  simp only [prepare, hpad, hrequest, Bind.bind, Except.bind]
  cases openNode tree device <;> rfl

/-- How asking the selected node ends, when the report data is not too long. -/
theorem rawReport_cases {generation : TdxDriver} {node : String} (hselects : Selects tree nodes generation node)
    {reportData : Bytes} (hlength : reportData.length ≤ reportDataSize) :
    ∃ sent, Asks (.padded reportDataSize reportData hlength) generation sent ∧ ∀ driver,
      (∀ cause, tree.openDevice node = .error cause → rawReport tree driver ⟨node, .tdx generation⟩ reportData =
        ⟨.error (.deviceUnopened node cause), []⟩) ∧
      (tree.openDevice node = .ok () →
        (∀ cause, driver sent = .error cause → rawReport tree driver ⟨node, .tdx generation⟩ reportData =
          ⟨.error (.reportRefused node cause), [sent]⟩) ∧
        ∀ report, driver sent = .ok report → rawReport tree driver ⟨node, .tdx generation⟩ reportData =
          ⟨.ok report, [sent]⟩) := by
  obtain ⟨sent, hasks, hrequest⟩ := exists_asks hselects (.padded reportDataSize reportData hlength)
  refine ⟨sent, hasks, fun driver => ⟨fun cause hopen => ?_, fun hopen => ?_⟩⟩
  · rw [rawReport, prepare_of_request hlength hrequest, openNode, hopen]
    rfl
  · have hprepare : prepare tree ⟨node, .tdx generation⟩ reportData = .ok sent := by
      rw [prepare_of_request hlength hrequest, openNode, hopen]
      rfl
    constructor
    · intro cause hrefused
      rw [rawReport, hprepare]
      simp only [hrefused]
    · intro report hreport
      rw [rawReport, hprepare]
      simp only [hreport]

/-! ## Registers -/

theorem registerOffset_of_le {index : Int} (h0 : 0 ≤ index) (h3 : index ≤ 3) :
    TdReport.registerOffset index = .ok (0x2d0 + 48 * index.toNat) := by
  simp [TdReport.registerOffset, TdReport.registerPosition_of_le h0 h3, Bind.bind, Except.bind, Pure.pure, Except.pure,
    TdReport.registersOffset, TdReport.registerSize]

theorem registerOffset_of_not_le {index : Int} (h : ¬ (0 ≤ index ∧ index ≤ 3)) :
    TdReport.registerOffset index = .error (.invalidRegister index) := by
  simp [TdReport.registerOffset, TdReport.registerPosition_of_not_le h, Bind.bind, Except.bind]

theorem registerOfReport_encode {index : Int} (h0 : 0 ≤ index) (h3 : index ≤ 3) (report : Block TdReport.size) :
    registerOfReport index (Text.Base64.encode report.bytes) =
      .ok (Text.Base64.encode ((report.bytes.drop (0x2d0 + 48 * index.toNat)).take 48)) := by
  have hextract : TdReport.extractRegister report.bytes index =
      .ok ((report.bytes.drop (0x2d0 + 48 * index.toNat)).take 48) :=
    TdReport.extractRegister_of_le report.length_eq h0 h3
  rw [registerOfReport, Text.Base64.decode?_encode]
  simp only [hextract]
  rfl

end Attestation.Tdx
