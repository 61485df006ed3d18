import Attestation.Proofs.FileTree.Kinds
import Attestation.Proofs.Service.DeviceAccess
import Attestation.Proofs.Service.Frame

/-!
# Which requests are refused as they stand

* `EventLogRequest.defect?`, `MeasurementRequest.defect?` : what is wrong with a request, the first of several things;
* `eventLogDocument_cases`, `measurementCategory?_cases` : all that can come of the checks;
* `serve_refuses`, `getEventLog_invalidRequest_iff`, `getMeasurement_invalidRequest_iff` : a request is refused for its
  defect, and is called invalid for nothing else;
* `cacheDocument_congr` : whether a document can be cached depends on the way to the cache file alone;
* `requests_validated` : which requests are refused, and what the others get at the level of a container.
-/

namespace Attestation

/-! ## Requests -/

namespace EventLogRequest

/-- A negative number, or a level that there is not, or at the level of the guest a log that there is not. -/
def Malformed (request : EventLogRequest) : Prop :=
  request.start < 0 ∨ request.count < 0 ∨ (request.level ≠ 0 ∧ request.level ≠ 1) ∨
    (request.level = 1 ∧ request.category ≠ 0 ∧ request.category ≠ 1)

instance (request : EventLogRequest) : Decidable request.Malformed :=
  inferInstanceAs (Decidable (_ ∨ _ ∨ _ ∨ _))

/-- What is wrong with the request. -/
def defect? (request : EventLogRequest) : Option RequestDefect :=
  if request.start < 0 then some (.negativeStart request.start)
  else if request.count < 0 then some (.negativeCount request.count)
  else if request.level = 0 then none
  else if request.level = 1 then
    if request.category = 0 ∨ request.category = 1 then none
    else some (.unknownEventLogCategory request.category)
  else some (.unknownLevel request.level)

theorem isSome_defect? (request : EventLogRequest) : request.defect?.isSome ↔ request.Malformed := by
  unfold defect? Malformed
  split_ifs <;> simp <;> omega

end EventLogRequest

namespace MeasurementRequest

/-- A negative register, or a level that there is not, or at the level of the guest a measurement that there is not. -/
def Malformed (request : MeasurementRequest) : Prop :=
  request.register < 0 ∨ (request.level ≠ 0 ∧ request.level ≠ 1) ∨
    (request.level = 1 ∧ request.category ≠ 0 ∧ request.category ≠ 1 ∧ request.category ≠ 2)

instance (request : MeasurementRequest) : Decidable request.Malformed :=
  inferInstanceAs (Decidable (_ ∨ _ ∨ _))

/-- What is wrong with the request. -/
def defect? (request : MeasurementRequest) : Option RequestDefect :=
  if request.register < 0 then some (.negativeRegister request.register)
  else if request.level = 0 then none
  else if request.level = 1 then
    if request.category = 0 ∨ request.category = 1 ∨ request.category = 2 then none
    else some (.unknownMeasurementCategory request.category)
  else some (.unknownLevel request.level)

theorem isSome_defect? (request : MeasurementRequest) : request.defect?.isSome ↔ request.Malformed := by
  unfold defect? Malformed
  split_ifs <;> simp <;> omega

end MeasurementRequest

namespace Service

variable {settings : Settings} {tree : FileTree}

/-! ## Checking a request -/

theorem eventLogCategory_of_known {value : Int} (h : value = 0 ∨ value = 1) :
    ∃ category, EventLogCategory.ofNumber value = .ok category := by
  rcases h with rfl | rfl
  · exact ⟨.tdx, rfl⟩
  · exact ⟨.tpm, rfl⟩

theorem eventLogCategory_of_unknown {value : Int} (h : ¬ (value = 0 ∨ value = 1)) :
    EventLogCategory.ofNumber value = .error (.invalidRequest (.unknownEventLogCategory value)) := by
  obtain ⟨h0, h1⟩ := not_or.1 h
  rw [EventLogCategory.ofNumber, if_neg h0, if_neg h1]

theorem measurementCategory_of_known {value : Int} (h : value = 0 ∨ value = 1 ∨ value = 2) :
    ∃ category, MeasurementCategory.ofNumber value = .ok category := by
  rcases h with rfl | rfl | rfl
  · exact ⟨.teeReport, rfl⟩
  · exact ⟨.tdxRegister, rfl⟩
  · exact ⟨.tpm, rfl⟩

theorem measurementCategory_of_unknown {value : Int} (h : ¬ (value = 0 ∨ value = 1 ∨ value = 2)) :
    MeasurementCategory.ofNumber value = .error (.invalidRequest (.unknownMeasurementCategory value)) := by
  obtain ⟨h0, h12⟩ := not_or.1 h
  obtain ⟨h1, h2⟩ := not_or.1 h12
  rw [MeasurementCategory.ofNumber, if_neg h0, if_neg h1, if_neg h2]

theorem eventLogDocument_eq (settings : Settings) (tree : FileTree) (request : EventLogRequest) :
    eventLogDocument settings tree request =
      if request.start < 0 then .error (.invalidRequest (.negativeStart request.start))
      else if request.count < 0 then .error (.invalidRequest (.negativeCount request.count))
      else if request.level = 0 then .ok ""
      else if request.level = 1 then (EventLogCategory.ofNumber request.category).bind fun category =>
        (guestEventLog settings tree category request.start.toNat request.count.toNat).mapError .evidence
      else .error (.invalidRequest (.unknownLevel request.level)) := by
  unfold eventLogDocument nonNegative Level.ofNumber
  split
  · rfl
  · split
    · rfl
    · split
      · rfl
      · split <;> rfl

/-- A request is refused for its defect; else it gets the empty document, or what the guest has. -/
theorem eventLogDocument_cases (settings : Settings) (tree : FileTree) (request : EventLogRequest) :
    (∃ defect, request.defect? = some defect ∧
        eventLogDocument settings tree request = .error (.invalidRequest defect)) ∨
      (request.defect? = none ∧ request.level = 0 ∧ eventLogDocument settings tree request = .ok "") ∨
      (request.defect? = none ∧ request.level = 1 ∧ ∃ result : Except Fault String,
        eventLogDocument settings tree request = result.mapError .evidence) := by
  rw [eventLogDocument_eq, EventLogRequest.defect?]
  split
  · exact .inl ⟨_, rfl, rfl⟩
  · split
    · exact .inl ⟨_, rfl, rfl⟩
    · split
      · next hlevel => exact .inr (.inl ⟨rfl, hlevel, rfl⟩)
      · split
        · next hlevel =>
          by_cases hcategory : request.category = 0 ∨ request.category = 1
          · obtain ⟨category, hok⟩ := eventLogCategory_of_known hcategory
            rw [if_pos hcategory, hok]
            exact .inr (.inr ⟨rfl, hlevel, _, rfl⟩)
          · rw [if_neg hcategory, eventLogCategory_of_unknown hcategory]
            exact .inl ⟨_, rfl, rfl⟩
        · exact .inl ⟨_, rfl, rfl⟩

theorem measurementCategory?_cases (request : MeasurementRequest) :
    (∃ defect, request.defect? = some defect ∧ measurementCategory? request = .error (.invalidRequest defect)) ∨
      (request.defect? = none ∧ request.level = 0 ∧ measurementCategory? request = .ok none) ∨
      (request.defect? = none ∧ request.level = 1 ∧
        ∃ category, measurementCategory? request = .ok (some category)) := by
  rw [measurementCategory?_eq, MeasurementRequest.defect?]
  split
  · exact .inl ⟨_, rfl, rfl⟩
  · split
    · next hlevel => exact .inr (.inl ⟨rfl, hlevel, rfl⟩)
    · split
      · next hlevel =>
        by_cases hcategory : request.category = 0 ∨ request.category = 1 ∨ request.category = 2
        · obtain ⟨category, hok⟩ := measurementCategory_of_known hcategory
          rw [if_pos hcategory, hok]
          exact .inr (.inr ⟨rfl, hlevel, category, rfl⟩)
        · rw [if_neg hcategory, measurementCategory_of_unknown hcategory]
          exact .inl ⟨_, rfl, rfl⟩
      · exact .inl ⟨_, rfl, rfl⟩

/-! ## Refused requests -/

/-- What is wrong with a request of either kind. -/
def Request.defect? : Request → Option RequestDefect
  | .eventLog request => request.defect?
  | .measurement request => request.defect?

/-- The answer to a request that is refused as it stands: the driver is not asked. -/
def Request.refusal (defect : RequestDefect) : Request → Answer
  | .eventLog _ => .eventLog (.error (.invalidRequest defect))
  | .measurement _ => .measurement ⟨.error (.invalidRequest defect), []⟩

/-- A request with a defect is refused for it, whatever there is, and changes nothing. -/
theorem serve_refuses {request : Request} {defect : RequestDefect} (h : request.defect? = some defect)
    (settings : Settings) (tree : FileTree) (driver : Driver) :
    serve settings tree ⟨request, driver⟩ = (request.refusal defect, tree) := by
  cases request with
  | eventLog request =>
    have h : request.defect? = some defect := h
    rcases eventLogDocument_cases settings tree request with ⟨d, hd, hdocument⟩ | ⟨hnone, -⟩ | ⟨hnone, -⟩
    · rw [hd] at h
      cases h
      rw [serve_eventLog, getEventLog_of_error hdocument]
      rfl
    · rw [hnone] at h
      cases h
    · rw [hnone] at h
      cases h
  | measurement request =>
    have h : request.defect? = some defect := h
    rcases measurementCategory?_cases request with ⟨d, hd, hcategory⟩ | ⟨hnone, -⟩ | ⟨hnone, -⟩
    · rw [hd] at h
      cases h
      simp only [serve, getMeasurement, hcategory]
      rfl
    · rw [hnone] at h
      cases h
    · rw [hnone] at h
      cases h

/-- A document that is there is not refused any more. -/
theorem cacheDocument_ne_invalidRequest (settings : Settings) (tree : FileTree) (document : String)
    (defect : RequestDefect) : (cacheDocument settings tree document).1 ≠ .error (.invalidRequest defect) := by
  obtain ⟨grown, -, ⟨cause, hcache⟩ | ⟨place, -, hcache⟩⟩ := cacheDocument_cases settings tree document
  · rw [hcache]
    simp
  · rw [hcache]
    simp

theorem getEventLog_invalidRequest_iff (settings : Settings) (tree : FileTree) (request : EventLogRequest)
    (defect : RequestDefect) :
    (getEventLog settings tree request).1 = .error (.invalidRequest defect) ↔ request.defect? = some defect := by
  rcases eventLogDocument_cases settings tree request with
    ⟨d, hd, hdocument⟩ | ⟨hnone, -, hdocument⟩ | ⟨hnone, -, result, hdocument⟩
  · rw [getEventLog_of_error hdocument, hd]
    simp
  · rw [getEventLog_of_ok hdocument, hnone]
    simpa using cacheDocument_ne_invalidRequest settings tree "" defect
  · rw [hnone]
    cases result with
    | error fault =>
      rw [getEventLog_of_error hdocument]
      simp
    | ok document =>
      rw [getEventLog_of_ok hdocument]
      simpa using cacheDocument_ne_invalidRequest settings tree document defect

theorem getMeasurement_invalidRequest_iff (settings : Settings) (tree : FileTree) (driver : Driver)
    (request : MeasurementRequest) (defect : RequestDefect) :
    (getMeasurement settings tree driver request).result = .error (.invalidRequest defect) ↔
      request.defect? = some defect := by
  unfold getMeasurement
  rcases measurementCategory?_cases request with
    ⟨d, hd, hcategory⟩ | ⟨hnone, -, hcategory⟩ | ⟨hnone, -, category, hcategory⟩
  · rw [hcategory, hd]
    simp
  · rw [hcategory, hnone]
    simp
  · rw [hcategory, hnone]
    simp only [reduceCtorEq, iff_false]
    generalize guestMeasurement settings tree driver category _ request.register = inquiry
    cases inquiry.result with
    | error fault => exact fun h => nomatch h
    | ok measurement => exact fun h => nomatch h

/-! ## The level of a container -/

theorem getMeasurement_of_level {request : MeasurementRequest} (hwell : ¬ request.Malformed)
    (hlevel : request.level = 0) (settings : Settings) (tree : FileTree) (driver : Driver) :
    getMeasurement settings tree driver request = ⟨.ok "", []⟩ := by
  rcases measurementCategory?_cases request with ⟨d, hd, -⟩ | ⟨-, -, hcategory⟩ | ⟨-, hguest, -⟩
  · exact absurd (request.isSome_defect?.1 (by rw [hd]; rfl)) hwell
  · rw [getMeasurement, hcategory]
  · rw [hlevel] at hguest
    cases hguest

theorem eventLogDocument_of_level {request : EventLogRequest} (hwell : ¬ request.Malformed)
    (hlevel : request.level = 0) (settings : Settings) (tree : FileTree) :
    eventLogDocument settings tree request = .ok "" := by
  rcases eventLogDocument_cases settings tree request with ⟨d, hd, -⟩ | ⟨-, -, hdocument⟩ | ⟨-, hguest, -⟩
  · exact absurd (request.isSome_defect?.1 (by rw [hd]; rfl)) hwell
  · exact hdocument
  · rw [hlevel] at hguest
    cases hguest

/-- The answer to a request whose document is cached: what the cache file holds, if it can be written. -/
theorem serve_document {request : EventLogRequest} {document : String} {settings : Settings} {tree : FileTree}
    (h : eventLogDocument settings tree request = .ok document) (driver : Driver) :
    (serve settings tree ⟨.eventLog request, driver⟩).1 =
      .eventLog ((cacheDocument settings tree document).1.map fun path => ⟨path, .ok (Bytes.ofText document)⟩) := by
  rw [serve_eventLog, getEventLog_of_ok h]
  obtain ⟨grown, -, ⟨cause, hcache⟩ | ⟨place, hwrites, hcache⟩⟩ := cacheDocument_cases settings tree document
  · rw [hcache]
    rfl
  · rw [hcache]
    simp only [Except.map, hwrites.read]

end Service

/-- The places on the way to the cache file, to the cache directory, and to the directories above it. -/
def Settings.cacheWay (settings : Settings) : List Place :=
  (settings.cachePath :: Path.ancestors settings.cacheDirectory).flatMap Path.way

namespace Service
open FileTree (SameKinds)

/-- Whether a document can be cached, and why not, depends on the kinds of what is on the way to the cache file alone:
neither on the document, nor on the other settings, nor on any file. -/
theorem cacheDocument_congr {settings settings' : Settings}
    (hdirectory : settings'.cacheDirectory = settings.cacheDirectory)
    (hfile : settings'.cacheFile = settings.cacheFile) {t u : FileTree} (hkinds : SameKinds settings.cacheWay t u)
    (document document' : String) :
    (cacheDocument settings t document).1 = (cacheDocument settings' u document').1 := by
  have hpath : settings'.cachePath = settings.cachePath := by
    rw [Settings.cachePath, Settings.cachePath, hdirectory, hfile]
  have hways : ∀ path ∈ settings.cachePath :: Path.ancestors settings.cacheDirectory,
      Path.way path ⊆ settings.cacheWay :=
    fun path hmem p hp => List.mem_flatMap.2 ⟨path, hmem, hp⟩
  obtain ⟨hresult, hgrown⟩ := hkinds.makeDirectories fun path hmem => hways path (List.mem_cons_of_mem _ hmem)
  have hwrite := hgrown.write (hways _ List.mem_cons_self) (Bytes.ofText document) (Bytes.ofText document')
  simp only [cacheDocument, hdirectory, hpath]
  cases ht : t.makeDirectories settings.cacheDirectory with
  | mk result t' =>
    cases hu : u.makeDirectories settings.cacheDirectory with
    | mk result' u' =>
      rw [ht, hu] at hresult hwrite
      obtain rfl : result = result' := hresult
      cases result with
      | error cause => rfl
      | ok _ =>
        rcases FileTree.outcome_cases hwrite with ⟨cause, hfirst, hsecond⟩ | ⟨_, _, hfirst, hsecond⟩
        · simp only [hfirst, hsecond]
        · simp only [hfirst, hsecond]

/-- A request of either kind that is refused as it stands. -/
def Request.Malformed : Request → Prop
  | .eventLog request => request.Malformed
  | .measurement request => request.Malformed

theorem exists_defect {request : Request} (h : request.Malformed) : ∃ defect, request.defect? = some defect := by
  cases request with
  | eventLog request => exact Option.isSome_iff_exists.1 (request.isSome_defect?.2 h)
  | measurement request => exact Option.isSome_iff_exists.1 (request.isSome_defect?.2 h)

/-- **Validation comes first.** A request is refused as invalid exactly when it is malformed. Then its answer is the
same whatever there is, nothing is changed, and no driver is asked. Any other request at the level of a container gets
an empty measurement, or an empty document unless the cache file cannot be written. Which of the two becomes of the
document depends neither on what else is asked for, nor on other settings than those of the cache, nor on any file or
directory but for whether it stands on the way to the cache file. -/
theorem requests_validated :
    (∀ (request : EventLogRequest) settings tree,
      (∃ defect, (getEventLog settings tree request).1 = .error (.invalidRequest defect)) ↔ request.Malformed) ∧
    (∀ (request : MeasurementRequest) settings tree driver,
      (∃ defect, (getMeasurement settings tree driver request).result = .error (.invalidRequest defect)) ↔
        request.Malformed) ∧
    (∀ request : Request, request.Malformed → ∃ defect, ∀ settings tree driver,
      serve settings tree ⟨request, driver⟩ = (request.refusal defect, tree)) ∧
    (∀ request : MeasurementRequest, ¬ request.Malformed → request.level = 0 → ∀ settings tree driver,
      getMeasurement settings tree driver request = ⟨.ok "", []⟩) ∧
    (∀ request : EventLogRequest, ¬ request.Malformed → request.level = 0 → ∀ settings tree driver,
      (serve settings tree ⟨.eventLog request, driver⟩).1 = .eventLog (.ok ⟨settings.cachePath, .ok []⟩) ∨
        ∃ cause, (serve settings tree ⟨.eventLog request, driver⟩).1 =
          .eventLog (.error (.cacheUnwritten settings.cachePath cause))) ∧
    ∀ first second : EventLogRequest, ¬ first.Malformed → first.level = 0 → ¬ second.Malformed → second.level = 0 →
      ∀ settings settings' : Settings, settings'.cacheDirectory = settings.cacheDirectory →
        settings'.cacheFile = settings.cacheFile → ∀ t u, SameKinds settings.cacheWay t u → ∀ driver driver',
          (serve settings t ⟨.eventLog first, driver⟩).1 = (serve settings' u ⟨.eventLog second, driver'⟩).1 := by
  refine ⟨fun request settings tree => ?_, fun request settings tree driver => ?_, fun request h => ?_,
    fun request hwell hlevel settings tree driver => getMeasurement_of_level hwell hlevel settings tree driver,
    fun request hwell hlevel settings tree driver => ?_, ?_⟩
  · rw [← request.isSome_defect?, Option.isSome_iff_exists]
    exact exists_congr fun defect => getEventLog_invalidRequest_iff settings tree request defect
  · rw [← request.isSome_defect?, Option.isSome_iff_exists]
    exact exists_congr fun defect => getMeasurement_invalidRequest_iff settings tree driver request defect
  · obtain ⟨defect, hdefect⟩ := exists_defect h
    exact ⟨defect, serve_refuses hdefect⟩
  · rw [serve_document (eventLogDocument_of_level hwell hlevel settings tree) driver]
    obtain ⟨grown, -, ⟨cause, hcache⟩ | ⟨place, -, hcache⟩⟩ := cacheDocument_cases settings tree ""
    · rw [hcache]
      exact .inr ⟨cause, rfl⟩
    · rw [hcache]
      exact .inl rfl
  · intro first second hfirst hlevel hsecond hlevel' settings settings' hdirectory hfile t u hkinds driver driver'
    rw [serve_document (eventLogDocument_of_level hfirst hlevel settings t) driver,
      serve_document (eventLogDocument_of_level hsecond hlevel' settings' u) driver',
      cacheDocument_congr hdirectory hfile hkinds "" ""]

/-- A tree with a device node and a file in the stead of the directory of the event log tables. -/
def deviceTree : FileTree :=
  (((FileTree.empty.put ["dev"] .directory).put ["dev", "tdx_guest"] (.file [])).put ["sys"] (.file [1, 2]))

theorem requests_validated_sample :
    (∃ defect, (getEventLog {} deviceTree ⟨1, 2, 0, 0⟩).1 = .error (.invalidRequest defect)) ∧
      (∃ defect, ∀ settings tree driver, serve settings tree ⟨.measurement ⟨1, 3, "", 0⟩, driver⟩ =
        (.measurement ⟨.error (.invalidRequest defect), []⟩, tree)) ∧
      getMeasurement {} deviceTree .absent ⟨0, 7, "data", 9⟩ = ⟨.ok "", []⟩ ∧
      SameKinds ({} : Settings).cacheWay .empty deviceTree ∧
      (serve {} .empty ⟨.eventLog ⟨0, 0, 0, 0⟩, .absent⟩).1 =
        (serve {} deviceTree ⟨.eventLog ⟨0, 9, 5, 6⟩, .absent⟩).1 := by
  obtain ⟨hlog, -, hrefused, hmeasurement, -, hsame⟩ := requests_validated
  have hkinds : SameKinds ({} : Settings).cacheWay .empty deviceTree := ⟨by decide +kernel, by decide +kernel⟩
  have hmalformed : (MeasurementRequest.mk 1 3 "" 0).Malformed := by decide
  refine ⟨(hlog ⟨1, 2, 0, 0⟩ {} deviceTree).2 (by decide), hrefused (.measurement ⟨1, 3, "", 0⟩) hmalformed,
    hmeasurement ⟨0, 7, "data", 9⟩ (by decide) rfl {} deviceTree .absent, hkinds, ?_⟩
  exact hsame ⟨0, 0, 0, 0⟩ ⟨0, 9, 5, 6⟩ (by decide) rfl (by decide) rfl {} {} rfl rfl _ _ hkinds .absent .absent

end Service

end Attestation
