import Attestation.Proofs.FileTree.Grow
import Attestation.Service.Session

/-!
# What serving requests does to the file tree

* `cacheDocument_cases`, `getEventLog_error`, `getEventLog_ok` : how a request for an event log can end;
* `Request.cached?`, `lastDocument?` : the document that a request, or a session, leaves in the cache file;
* `session_frame` : only the cache file and the directories above it are ever made or changed, a failed request makes
  directories at most, and the cache file holds the document of the last request that was served.
-/

namespace Attestation.Service
open FileTree (GrownBy WritesAt)

variable {settings : Settings} {tree : FileTree}

/-! ## One request -/

/-- How a document can be cached: either directories are made and nothing else, or the file is written as well. -/
theorem cacheDocument_cases (settings : Settings) (tree : FileTree) (document : String) :
    ∃ grown, GrownBy (Path.ancestors settings.cacheDirectory) tree grown ∧
      ((∃ cause, cacheDocument settings tree document = (.error (.cacheUnwritten settings.cachePath cause), grown)) ∨
        ∃ place, grown.WritesAt settings.cachePath place ∧ cacheDocument settings tree document =
          (.ok settings.cachePath, grown.put place (.file (Bytes.ofText document)))) := by
  have hgrown := tree.makeDirectories_grownBy settings.cacheDirectory
  unfold cacheDocument
  cases hmade : tree.makeDirectories settings.cacheDirectory with
  | mk result grown =>
    rw [hmade] at hgrown
    refine ⟨grown, hgrown, ?_⟩
    cases result with
    | error cause => exact .inl ⟨cause, rfl⟩
    | ok u =>
      rcases grown.write_cases settings.cachePath with ⟨place, hwrites⟩ | ⟨cause, herror⟩
      · refine .inr ⟨place, hwrites, ?_⟩
        simp only [hwrites.write]
      · refine .inl ⟨cause, ?_⟩
        simp only [herror]

theorem getEventLog_of_error {request : EventLogRequest} {fault : ServiceFault}
    (h : eventLogDocument settings tree request = .error fault) :
    getEventLog settings tree request = (.error fault, tree) := by
  rw [getEventLog, h]

theorem getEventLog_of_ok {request : EventLogRequest} {document : String}
    (h : eventLogDocument settings tree request = .ok document) :
    getEventLog settings tree request = cacheDocument settings tree document := by
  rw [getEventLog, h]

/-- A request fails for want of a document with the tree as it was, or for want of a cache file with more directories
at most. -/
theorem getEventLog_error {request : EventLogRequest} {fault : ServiceFault} {after : FileTree}
    (h : getEventLog settings tree request = (.error fault, after)) :
    GrownBy (Path.ancestors settings.cacheDirectory) tree after ∧
      ((∃ cause, fault = .cacheUnwritten settings.cachePath cause) ∨
        eventLogDocument settings tree request = .error fault ∧ after = tree) := by
  cases hdocument : eventLogDocument settings tree request with
  | error fault' =>
    rw [getEventLog_of_error hdocument] at h
    cases h
    exact ⟨.refl _ _, .inr ⟨rfl, rfl⟩⟩
  | ok document =>
    rw [getEventLog_of_ok hdocument] at h
    obtain ⟨grown, hgrown, ⟨cause, hcache⟩ | ⟨place, -, hcache⟩⟩ := cacheDocument_cases settings tree document
    · rw [hcache] at h
      cases h
      exact ⟨hgrown, .inl ⟨cause, rfl⟩⟩
    · rw [hcache] at h
      cases h

/-- A served request writes its document to the cache file, in a tree with more directories at most. -/
theorem getEventLog_ok {request : EventLogRequest} {path : String} {after : FileTree}
    (h : getEventLog settings tree request = (.ok path, after)) :
    ∃ document grown place, eventLogDocument settings tree request = .ok document ∧ path = settings.cachePath ∧
      GrownBy (Path.ancestors settings.cacheDirectory) tree grown ∧ grown.WritesAt settings.cachePath place ∧
      after = grown.put place (.file (Bytes.ofText document)) := by
  cases hdocument : eventLogDocument settings tree request with
  | error fault =>
    rw [getEventLog_of_error hdocument] at h
    cases h
  | ok document =>
    rw [getEventLog_of_ok hdocument] at h
    obtain ⟨grown, hgrown, ⟨cause, hcache⟩ | ⟨place, hwrites, hcache⟩⟩ := cacheDocument_cases settings tree document
    · rw [hcache] at h
      cases h
    · rw [hcache] at h
      cases h
      exact ⟨document, grown, place, rfl, rfl, hgrown, hwrites, rfl⟩

/-! ## Sessions -/

/-- The document that a request leaves in the cache file, if it is served. -/
def Request.cached? (settings : Settings) (tree : FileTree) : Request → Option String
  | .eventLog request =>
    if (getEventLog settings tree request).1.isOk then (eventLogDocument settings tree request).toOption else none
  | .measurement _ => none

/-- The document of the last request for an event log that is served. -/
def lastDocument? (settings : Settings) (tree : FileTree) : (turns : List Turn) → Option String
  | [] => none
  | turn :: turns =>
    (lastDocument? settings (serve settings tree turn).2 turns).or (turn.request.cached? settings tree)

theorem serve_eventLog (settings : Settings) (tree : FileTree) (request : EventLogRequest) (driver : Driver) :
    serve settings tree ⟨.eventLog request, driver⟩ =
      (.eventLog ((getEventLog settings tree request).1.map fun path =>
        ⟨path, (getEventLog settings tree request).2.read path⟩), (getEventLog settings tree request).2) := by
  unfold serve
  simp only
  split
  · next h => rw [h]; rfl
  · next h => rw [h]; rfl

/-- One turn that caches nothing. -/
theorem serve_grownBy {turn : Turn} (h : turn.request.cached? settings tree = none) :
    GrownBy (Path.ancestors settings.cacheDirectory) tree (serve settings tree turn).2 := by
  obtain ⟨request, driver⟩ := turn
  cases request with
  | measurement request => exact .refl _ _
  | eventLog request =>
    rw [serve_eventLog]
    cases hserved : getEventLog settings tree request with
    | mk result after =>
      cases result with
      | error fault => exact (getEventLog_error hserved).1
      | ok path =>
        obtain ⟨document, -, -, hdocument, -⟩ := getEventLog_ok hserved
        simp [Request.cached?, hserved, hdocument, Except.isOk, Except.toBool, Except.toOption] at h

/-- One turn that caches a document. -/
theorem serve_read {turn : Turn} {document : String} (h : turn.request.cached? settings tree = some document) :
    (serve settings tree turn).2.read settings.cachePath = .ok (Bytes.ofText document) := by
  obtain ⟨request, driver⟩ := turn
  cases request with
  | measurement request => cases h
  | eventLog request =>
    rw [serve_eventLog]
    cases hserved : getEventLog settings tree request with
    | mk result after =>
      cases result with
      | error fault => simp [Request.cached?, hserved, Except.isOk, Except.toBool] at h
      | ok path =>
        obtain ⟨document', grown, place, hdocument, -, -, hwrites, rfl⟩ := getEventLog_ok hserved
        have heq : document' = document := by
          simpa [Request.cached?, hserved, hdocument, Except.isOk, Except.toBool, Except.toOption] using h
        rw [← heq]
        exact hwrites.read _

/-- A session in which nothing is cached. -/
theorem serveAll_grownBy {turns : List Turn} (h : lastDocument? settings tree turns = none) :
    GrownBy (Path.ancestors settings.cacheDirectory) tree (serveAll settings tree turns).2 := by
  induction turns generalizing tree with
  | nil => exact .refl _ _
  | cons turn turns ih =>
    obtain ⟨hrest, hturn⟩ := Option.or_eq_none_iff.1 h
    exact (serve_grownBy hturn).trans (ih hrest)

/-- What is cached last stays in the cache file. -/
theorem serveAll_read {turns : List Turn} {document : String} (h : lastDocument? settings tree turns = some document) :
    (serveAll settings tree turns).2.read settings.cachePath = .ok (Bytes.ofText document) := by
  induction turns generalizing tree with
  | nil => cases h
  | cons turn turns ih =>
    rcases Option.or_eq_some_iff.1 h with hrest | ⟨hrest, hturn⟩
    · exact ih hrest
    · exact (serveAll_grownBy hrest).read (serve_read hturn)

/-- **The frame of a session.** Only the cache file and the directories above it are ever made or changed. A request
that fails leaves the tree as it was, or makes directories when the cache file cannot be written. A request that is
served puts its document into the cache file, and there it stays until the next request is served. -/
theorem session_frame (settings : Settings) (tree : FileTree) :
    (∀ driver request, (serve settings tree ⟨.measurement request, driver⟩).2 = tree) ∧
    (∀ request fault after, getEventLog settings tree request = (.error fault, after) →
      ((∀ path cause, fault ≠ .cacheUnwritten path cause) → after = tree) ∧
        GrownBy (Path.ancestors settings.cacheDirectory) tree after) ∧
    (∀ request path after, getEventLog settings tree request = (.ok path, after) →
      ∃ document place, eventLogDocument settings tree request = .ok document ∧ path = settings.cachePath ∧
        after.resolve settings.cachePath = .ok place ∧
        after.read settings.cachePath = .ok (Bytes.ofText document) ∧
        ∀ q ≠ place, after.get? q = tree.get? q ∨ tree.get? q = none ∧ after.get? q = some .directory ∧
          ∃ directory ∈ Path.ancestors settings.cacheDirectory, after.resolve directory = .ok q) ∧
    ∀ turns,
      (∀ document, lastDocument? settings tree turns = some document →
        (serveAll settings tree turns).2.read settings.cachePath = .ok (Bytes.ofText document)) ∧
      (lastDocument? settings tree turns = none →
        GrownBy (Path.ancestors settings.cacheDirectory) tree (serveAll settings tree turns).2 ∧
        (∀ place content, (serveAll settings tree turns).2.get? place = some (.file content) ↔
          tree.get? place = some (.file content)) ∧
        ∀ content, tree.read settings.cachePath = .ok content →
          (serveAll settings tree turns).2.read settings.cachePath = .ok content) := by
  refine ⟨fun _ _ => rfl, ?_, ?_, fun turns => ⟨fun document h => serveAll_read h, fun h => ?_⟩⟩
  · intro request fault after h
    obtain ⟨hgrown, ⟨cause, hfault⟩ | ⟨-, hsame⟩⟩ := getEventLog_error h
    · exact ⟨fun hother => absurd hfault (hother _ _), hgrown⟩
    · exact ⟨fun _ => hsame, hgrown⟩
  · intro request path after h
    obtain ⟨document, grown, place, hdocument, hpath, hgrown, hwrites, rfl⟩ := getEventLog_ok h
    refine ⟨document, place, hdocument, hpath, hwrites.resolve _, hwrites.read _, fun q hq => ?_⟩
    rw [hwrites.free.get?_put, if_neg hq]
    rcases hgrown q with hsame | ⟨hnone, hdir, directory, hmem, hresolve⟩
    · exact .inl hsame
    · exact .inr ⟨hnone, hdir, directory, hmem, (hwrites.free.keeps _).resolve hresolve⟩
  · have hgrown := serveAll_grownBy h
    exact ⟨hgrown, hgrown.get?_file, fun content hread => hgrown.read hread⟩

/-- A request for a log that is missing leaves the empty document of the one before it. -/
theorem session_frame_sample :
    lastDocument? {} .empty [⟨.eventLog ⟨0, 0, 0, 0⟩, .absent⟩, ⟨.eventLog ⟨1, 1, 0, 0⟩, .absent⟩] = some "" ∧
      (serveAll {} .empty [⟨.eventLog ⟨0, 0, 0, 0⟩, .absent⟩, ⟨.eventLog ⟨1, 1, 0, 0⟩, .absent⟩]).2.read
        ({} : Settings).cachePath = .ok (Bytes.ofText "") := by
  have hlast : lastDocument? {} .empty [⟨.eventLog ⟨0, 0, 0, 0⟩, .absent⟩, ⟨.eventLog ⟨1, 1, 0, 0⟩, .absent⟩] =
      some "" := by decide +kernel
  exact ⟨hlast, ((session_frame {} .empty).2.2.2 _).1 "" hlast⟩

end Attestation.Service
