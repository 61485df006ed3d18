import Attestation.Proofs.Device.Backend
import Attestation.Proofs.Device.Register

/-!
# Searching a list of backends

Two searches go through the same list: discovery ends at the first backend that does more than having no device, and
a report comes from the first backend that handles the kind of the device.

* `findFirst_deprecated`, `reportFirst_append` : how both searches go on in a longer list;
* `report_eq_of_handles` : backends that handle the same device give the same report of it;
* `Serves tree backend device` : what holds of a device for the backend that found it, and what follows for its report;
* `search_composes`, `discovered_served` : the laws of both searches, and that they fit together.
-/

namespace Attestation

namespace Backend

variable {tree : FileTree} {backend owner : Backend} {backends : List Backend} {device : Device}

/-! ## Deprecated nodes -/

theorem find_deprecated {nodes : TdxNodes} (h : tree.exists? nodes.deprecated = true) :
    (tdx nodes).find tree = .error (.deprecatedDevice nodes.deprecated) :=
  if_pos h

/-- A deprecated node ends the search, if it did not end before. -/
theorem findFirst_deprecated {nodes : TdxNodes} (h : tree.exists? nodes.deprecated = true)
    (before after : List Backend) :
    findFirst tree (before ++ tdx nodes :: after) =
      if findFirst tree before = .error .deviceNotFound then .error (.deprecatedDevice nodes.deprecated)
      else findFirst tree before := by
  rw [findFirst_append, findFirst_of_error (find_deprecated h) (by simp)]

/-! ## Reports -/

theorem handles_tdx_iff {nodes : TdxNodes} {kind : DeviceKind} :
    (tdx nodes).handles kind = true ↔ ∃ generation, kind = .tdx generation := by
  constructor
  · intro h
    cases kind with
    | tdx generation => exact ⟨generation, rfl⟩
    | sev | sgx | tpm => cases h
  · rintro ⟨generation, rfl⟩
    rfl

theorem reportFirst_append (tree : FileTree) (driver : Driver) (device : Device) (reportData : Bytes)
    (xs ys : List Backend) :
    reportFirst tree driver device reportData (xs ++ ys) =
      if anyHandles xs device.kind then reportFirst tree driver device reportData xs
      else reportFirst tree driver device reportData ys := by
  unfold reportFirst anyHandles
  rw [List.find?_append]
  cases h : xs.find? (·.handles device.kind) with
  | none =>
    have hany : xs.any (·.handles device.kind) = false := by simpa using h
    rw [hany]
    rfl
  | some backend =>
    have hany : xs.any (·.handles device.kind) = true :=
      List.any_eq_true.2 ⟨backend, List.mem_of_find?_eq_some h, (List.find?_eq_some_iff_append.1 h).1⟩
    rw [hany]
    rfl

theorem report_eq_of_handles {other : Backend} (h : backend.handles device.kind = true)
    (hother : other.handles device.kind = true) (tree : FileTree) (driver : Driver) (reportData : Bytes) :
    other.report tree driver device reportData = backend.report tree driver device reportData := by
  -- only backends of one technology handle a kind, and no report looks at the nodes that they search
  obtain ⟨path, kind⟩ := device
  cases kind <;> cases backend <;> cases h <;> cases other <;> cases hother <;> rfl

/-- A report comes from any backend that handles the kind of the device: they all give the same. -/
theorem reportFirst_of_mem (hmem : backend ∈ backends) (h : backend.handles device.kind = true) (tree : FileTree)
    (driver : Driver) (reportData : Bytes) :
    reportFirst tree driver device reportData backends = backend.report tree driver device reportData := by
  unfold reportFirst
  cases hfirst : backends.find? (·.handles device.kind) with
  | none => exact absurd h (List.find?_eq_none.1 hfirst backend hmem)
  | some first => exact report_eq_of_handles h (List.find?_eq_some_iff_append.1 hfirst).1 tree driver reportData

/-! ## Devices that were found -/

/-- A device that the backend serves, at a path that exists. -/
structure Serves (tree : FileTree) (backend : Backend) (device : Device) : Prop where
  exists_path : tree.exists? device.path = true
  supported : device.kind ≠ .tdx .deprecated
  handles : backend.handles device.kind = true

theorem Serves.of_firstNode {kind : DeviceKind} {paths : List String} (hkind : kind ≠ .tdx .deprecated)
    (hhandles : backend.handles kind = true) (h : firstNode tree kind paths = .ok device) :
    Serves tree backend device := by
  obtain ⟨-, hexists, rfl⟩ := firstNode_eq_ok h
  exact ⟨hexists, hkind, hhandles⟩

/-- Every backend serves the device that it finds. -/
theorem Serves.of_find (h : backend.find tree = .ok device) : Serves tree backend device := by
  cases backend with
  | tdx nodes =>
    obtain ⟨-, generation, node, hselects, rfl⟩ := Tdx.find_eq_ok_iff.1 h
    cases hselects with
    | v1_0 h0 => exact ⟨h0, by simp, rfl⟩
    | v1_5 _ h5 => exact ⟨h5, by simp, rfl⟩
  | sev nodes => exact .of_firstNode (by simp) rfl h
  | sgx nodes => exact .of_firstNode (by simp) rfl h
  | tpm nodes => exact .of_firstNode (by simp) rfl h

/-- A device that is served is neither foreign to its backend nor deprecated. -/
theorem Serves.report_fault (h : Serves tree backend device) {later : FileTree} {driver : Driver} {reportData : Bytes}
    {fault : Fault} (hfault : (backend.report later driver device reportData).result = .error fault) :
    fault ≠ .deviceNotFound ∧ ∀ path, fault ≠ .deprecatedDevice path := by
  cases backend with
  | tdx nodes =>
    obtain ⟨generation, hkind⟩ := handles_tdx_iff.1 h.handles
    have hsupported : generation ≠ .deprecated := fun hc => h.supported (hkind.trans (congrArg DeviceKind.tdx hc))
    rcases Tdx.rawReport_fault_of_supported hkind hsupported (Tdx.report_eq_error.1 hfault) with
      rfl | ⟨cause, rfl⟩ | ⟨cause, rfl⟩ <;> simp
  | sev nodes =>
    cases hfault
    simp
  | sgx nodes =>
    cases hfault
    simp
  | tpm nodes =>
    cases hfault
    simp

/-! ## Both searches -/

/-- **Searching a list of backends.** Discovery in a longer list goes on only where no backend before had a device, and
a report comes from the first part of a list with a backend for the kind of the device. A deprecated node ends
discovery, unless a backend before has ended it, and what stands behind it never matters. No device is found where
every backend finds none. -/
theorem search_composes (tree : FileTree) :
    (∀ xs ys, findFirst tree (xs ++ ys) =
      if findFirst tree xs = .error .deviceNotFound then findFirst tree ys else findFirst tree xs) ∧
    (∀ xs ys driver device reportData, reportFirst tree driver device reportData (xs ++ ys) =
      if anyHandles xs device.kind then reportFirst tree driver device reportData xs
      else reportFirst tree driver device reportData ys) ∧
    (∀ before nodes after result, tree.exists? nodes.deprecated = true →
      findFirst tree (before ++ tdx nodes :: after) = result →
        result ≠ .error .deviceNotFound ∧
        (result = .error (.deprecatedDevice nodes.deprecated) ∨
          ∃ earlier owner later, before = earlier ++ owner :: later ∧
            (∀ backend ∈ earlier, backend.find tree = .error .deviceNotFound) ∧ owner.find tree = result) ∧
        (∀ device, (tdx nodes).find tree ≠ .ok device) ∧
        ∀ others, findFirst tree (before ++ tdx nodes :: others) = result) ∧
    ∀ backends, findFirst tree backends = .error .deviceNotFound ↔
      ∀ backend ∈ backends, backend.find tree = .error .deviceNotFound := by
  refine ⟨findFirst_append tree, fun xs ys driver device reportData => ?_, ?_, ?_⟩
  · exact reportFirst_append tree driver device reportData xs ys
  · intro before nodes after result hexists hresult
    rw [findFirst_deprecated hexists] at hresult
    refine ⟨?_, ?_, ?_, ?_⟩
    · rw [← hresult]
      split
      · simp
      · assumption
    · by_cases hbefore : findFirst tree before = .error .deviceNotFound
      · rw [if_pos hbefore] at hresult
        exact .inl hresult.symm
      · rw [if_neg hbefore] at hresult
        obtain ⟨owner, howner, hfind⟩ := exists_owner hbefore
        obtain ⟨-, earlier, later, hsplit, hearlier⟩ := owner?_eq_some_iff.1 howner
        exact .inr ⟨earlier, owner, later, hsplit, hearlier, hfind.trans hresult⟩
    · intro device
      rw [find_deprecated hexists]
      simp
    · intro others
      rw [findFirst_deprecated hexists]
      exact hresult
  · exact fun backends => findFirst_eq_deviceNotFound_iff

/-- A node of an early TDX driver is not passed over for one that a later backend would find. -/
theorem search_composes_sample :
    Tdx.sampleGuest.exists? "/g" = true ∧
      findFirst Tdx.sampleGuest [sev {}] = .error .deviceNotFound ∧
      findFirst Tdx.sampleGuest ([sev {}] ++ tdx { deprecated := "/g" } :: [sev { guest := "/g" }]) =
        .error (.deprecatedDevice "/g") ∧
      findFirst Tdx.sampleGuest ([sev {}] ++ tdx { deprecated := "/g" } :: [tdx { v1_0 := "/g" }]) =
        .error (.deprecatedDevice "/g") := by
  have hexists : Tdx.sampleGuest.exists? "/g" = true := by decide +kernel
  obtain ⟨happend, -, hdeprecated, hnone⟩ := search_composes Tdx.sampleGuest
  have hsev : findFirst Tdx.sampleGuest [sev {}] = .error .deviceNotFound := (hnone [sev {}]).2 (by decide +kernel)
  have hfirst : findFirst Tdx.sampleGuest ([sev {}] ++ tdx { deprecated := "/g" } :: [sev { guest := "/g" }]) =
      .error (.deprecatedDevice "/g") := by
    rw [happend, if_pos hsev]
    exact findFirst_of_error (find_deprecated hexists) (by simp)
  obtain ⟨-, -, -, hothers⟩ := hdeprecated _ _ _ _ hexists hfirst
  exact ⟨hexists, hsev, hfirst, hothers [tdx { v1_0 := "/g" }]⟩

/-- **A device is served by the backend that found it.** A device that discovery finds exists, is not deprecated, and is
handled. Its report is that of the backend that found it, with the same requests to the driver, whichever backend of
its kind comes first and whatever has become of the files since; and that backend never calls it foreign or
deprecated. -/
theorem discovered_served {tree : FileTree} {backends : List Backend} {device : Device}
    (h : findFirst tree backends = .ok device) :
    tree.exists? device.path = true ∧ device.kind ≠ .tdx .deprecated ∧ anyHandles backends device.kind = true ∧
      ∃ before owner after, backends = before ++ owner :: after ∧
        (∀ backend ∈ before, backend.find tree = .error .deviceNotFound) ∧ owner.find tree = .ok device ∧
        ∀ later driver reportData,
          reportFirst later driver device reportData backends = owner.report later driver device reportData ∧
          ∀ fault, (reportFirst later driver device reportData backends).result = .error fault →
            fault ≠ .deviceNotFound ∧ ∀ path, fault ≠ .deprecatedDevice path := by
  have hends : findFirst tree backends ≠ .error .deviceNotFound := by simp [h]
  obtain ⟨owner, howner, hfind⟩ := exists_owner hends
  rw [h] at hfind
  have hserves := Serves.of_find hfind
  obtain ⟨-, before, after, hsplit, hbefore⟩ := owner?_eq_some_iff.1 howner
  have hmem : owner ∈ backends := by simp [hsplit]
  refine ⟨hserves.exists_path, hserves.supported, List.any_eq_true.2 ⟨owner, hmem, hserves.handles⟩,
    before, owner, after, hsplit, hbefore, hfind, fun later driver reportData => ?_⟩
  have hreport := reportFirst_of_mem hmem hserves.handles later driver reportData
  refine ⟨hreport, fun fault hfault => ?_⟩
  rw [hreport] at hfault
  exact hserves.report_fault hfault

/-- Two TDX backends with different nodes: the first handles what the second finds. -/
def sampleBackends : List Backend := [tdx {}, tdx { v1_5 := "/g" }, sev {}]

theorem discovered_served_sample :
    findFirst Tdx.sampleGuest sampleBackends = .ok ⟨"/g", .tdx .v1_5⟩ ∧ Tdx.sampleGuest.exists? "/g" = true ∧
      anyHandles sampleBackends (.tdx .v1_5) = true ∧
      ∃ owner ∈ sampleBackends, owner.find Tdx.sampleGuest = .ok ⟨"/g", .tdx .v1_5⟩ ∧
        reportFirst Tdx.sampleGuest .absent ⟨"/g", .tdx .v1_5⟩ [7] sampleBackends =
          owner.report Tdx.sampleGuest .absent ⟨"/g", .tdx .v1_5⟩ [7] := by
  have hfound : findFirst Tdx.sampleGuest sampleBackends = .ok ⟨"/g", .tdx .v1_5⟩ := by decide +kernel
  obtain ⟨hexists, -, hhandles, before, owner, after, hsplit, -, hfind, hreport⟩ := discovered_served hfound
  refine ⟨hfound, hexists, hhandles, owner, by simp [hsplit], hfind, ?_⟩
  exact (hreport Tdx.sampleGuest .absent [7]).1

end Backend

end Attestation
