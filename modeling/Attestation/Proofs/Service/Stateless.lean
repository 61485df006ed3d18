import Attestation.Proofs.FileTree.Retry
import Attestation.Proofs.Service.Evidence
import Attestation.Proofs.Service.Frame

/-!
# Answers do not depend on earlier requests

What requests leave in the tree is a cache file with the directories above it. Where evidence lies apart from them, it
looks the same before and after, and the next document is cached as if it were the first.

* `Settings.KeepsApart`, `Settings.LongNamesApart` : evidence lies apart from the cache;
* `cacheDocument_sameEvidence`, `cacheDocument_again` : caching a document changes neither the evidence nor what caching
  the next one does;
* `session_stateless` : every answer of a session is the one that the request would get on its own.
-/

namespace Attestation

/-! ## Settings that keep evidence apart -/

namespace Settings

/-- All paths are plain. Nothing is looked for at the cache file or below it, nor at the cache directory or above. -/
structure KeepsApart (settings : Settings) : Prop where
  plain : ∀ path ∈ settings.cacheDirectory :: settings.inputs, Path.Plain path
  file : ∀ path ∈ settings.inputs, ¬ Path.place settings.cachePath <+: Path.place path
  directory : ∀ path ∈ settings.inputs, ¬ Path.place path <+: Path.place settings.cacheDirectory

/-- A name on the way to the event log of the TPM that is too long stands neither in the cache directory nor in one
above it. -/
def LongNamesApart (settings : Settings) : Prop :=
  ∀ above name below, Path.place settings.devices.tpm.eventLog = above ++ name :: below →
    FileTree.maxName < name.utf8ByteSize → ¬ above <+: Path.place settings.cacheDirectory

theorem LongNamesApart.of_short {settings : Settings}
    (h : ∀ name ∈ Path.place settings.devices.tpm.eventLog, name.utf8ByteSize ≤ FileTree.maxName) :
    settings.LongNamesApart := by
  intro above name below hnames hlong
  have hshort := h name (by simp [hnames])
  omega

end Settings

namespace Service
open FileTree (Alike)

variable {settings : Settings} {tree : FileTree}

/-! ## Caching documents -/

theorem sameEvidence_of_alike {t u : FileTree} (hapart : settings.KeepsApart)
    (halike : ∀ path ∈ settings.inputs, Alike (Path.place path) t u)
    (hlong : ∀ above name below, Path.place settings.devices.tpm.eventLog = above ++ name :: below →
      FileTree.maxName < name.utf8ByteSize → (t.get? above = some .directory ↔ u.get? above = some .directory)) :
    SameEvidence settings t u := by
  have hplain : ∀ path ∈ settings.inputs, Path.Plain path :=
    fun path hmem => hapart.plain path (List.mem_cons_of_mem _ hmem)
  have heventLog : settings.devices.tpm.eventLog ∈ settings.inputs := by simp [Settings.inputs]
  exact
    { exists? := fun path hmem => (halike path hmem).exists?_eq (hplain path hmem)
      read := fun path hmem hexists => (halike path hmem).read_of_exists (hplain path hmem) hexists
      eventLog := (halike _ heventLog).read_eq (hplain _ heventLog) (FileTree.meetsLongName_congr hlong) }

/-- Caching a document leaves the evidence as it is. -/
theorem cacheDocument_sameEvidence (hapart : settings.KeepsApart) (hlong : settings.LongNamesApart) (tree : FileTree)
    (document : String) : SameEvidence settings tree (cacheDocument settings tree document).2 := by
  have hplain := hapart.plain settings.cacheDirectory List.mem_cons_self
  obtain ⟨grown, hgrown, hcached⟩ := cacheDocument_cases settings tree document
  have hmade : ∀ path ∈ settings.inputs, Alike (Path.place path) tree grown :=
    fun path hmem => hgrown.alike hplain (hapart.directory path hmem)
  have hdirectories : ∀ above name below, Path.place settings.devices.tpm.eventLog = above ++ name :: below →
      FileTree.maxName < name.utf8ByteSize → tree.get? above = grown.get? above :=
    fun above name below hnames hname => (hgrown.alike hplain (hlong above name below hnames hname)).ends
  rcases hcached with ⟨cause, hcache⟩ | ⟨place, hwrites, hcache⟩
  · rw [hcache]
    refine sameEvidence_of_alike hapart hmade fun above name below hnames hname => ?_
    rw [hdirectories above name below hnames hname]
  · have hplace : place = Path.place settings.cachePath := FileTree.resolve_place (hwrites.resolve [])
    rw [hcache]
    refine sameEvidence_of_alike hapart (fun path hmem => ?_) fun above name below hnames hname => ?_
    · refine (hmade path hmem).trans (hwrites.free.alike ?_ _)
      rw [hplace]
      exact hapart.file path hmem
    · rw [hwrites.free.get?_put_directory, hdirectories above name below hnames hname]

/-- The next document is cached as if it were the first. -/
theorem cacheDocument_again (hplain : Path.Plain settings.cacheDirectory) (tree : FileTree) (first next : String) :
    cacheDocument settings (cacheDocument settings tree first).2 next = cacheDocument settings tree next := by
  have hne : settings.cacheDirectory ≠ "" := by
    intro hempty
    rw [hempty] at hplain
    exact absurd hplain.1 (by decide +kernel)
  cases hmade : tree.makeDirectories settings.cacheDirectory with
  | mk result grown =>
    cases result with
    | error cause =>
      have hfirst : ∀ document, cacheDocument settings tree document =
          (.error (.cacheUnwritten settings.cachePath cause), grown) := by
        intro document
        simp only [cacheDocument, hmade]
      rw [hfirst, hfirst]
      simp only [cacheDocument, FileTree.makeDirectories_again hplain hmade]
    | ok u =>
      have hdirectory := FileTree.makeDirectories_isDirectory hne hmade
      rcases grown.write_cases settings.cachePath with ⟨place, hwrites⟩ | ⟨cause, herror⟩
      · have hfirst : ∀ document, cacheDocument settings tree document =
            (.ok settings.cachePath, grown.put place (.file (Bytes.ofText document))) := by
          intro document
          simp only [cacheDocument, hmade, hwrites.write]
        rw [hfirst, hfirst]
        have hkept := (hwrites.free.keeps (.file (Bytes.ofText first))).isDirectory hdirectory
        simp only [cacheDocument, FileTree.makeDirectories_of_isDirectory hkept, (hwrites.again _).write,
          FileTree.put_put hwrites.free]
      · have hfirst : ∀ document, cacheDocument settings tree document =
            (.error (.cacheUnwritten settings.cachePath cause), grown) := by
          intro document
          simp only [cacheDocument, hmade, herror]
        rw [hfirst, hfirst]
        simp only [cacheDocument, FileTree.makeDirectories_of_isDirectory hdirectory, herror]

/-! ## Sessions -/

/-- The tree is as it was before a session, or one in which a document was cached since. -/
def Cached (settings : Settings) (tree u : FileTree) : Prop :=
  u = tree ∨ ∃ document, u = (cacheDocument settings tree document).2

theorem Cached.sameEvidence (hapart : settings.KeepsApart) (hlong : settings.LongNamesApart) {u : FileTree}
    (h : Cached settings tree u) : SameEvidence settings tree u := by
  rcases h with rfl | ⟨document, rfl⟩
  · exact .refl _ _
  · exact cacheDocument_sameEvidence hapart hlong tree document

theorem Cached.cacheDocument (hplain : Path.Plain settings.cacheDirectory) {u : FileTree} (h : Cached settings tree u)
    (document : String) : cacheDocument settings u document = Service.cacheDocument settings tree document := by
  rcases h with rfl | ⟨first, rfl⟩
  · rfl
  · exact cacheDocument_again hplain tree first document

/-- One request: it gets the answer that it would have got before, and either leaves the tree as it is, as it would have
before, or leaves the tree that it would have left before. -/
theorem Cached.serve_cases (hapart : settings.KeepsApart) (hlong : settings.LongNamesApart) {u : FileTree}
    (h : Cached settings tree u) (turn : Turn) :
    serve settings u turn = ((serve settings tree turn).1, u) ∧ (serve settings tree turn).2 = tree ∨
      serve settings u turn = serve settings tree turn ∧ Cached settings tree (serve settings tree turn).2 := by
  have hsame := h.sameEvidence hapart hlong
  obtain ⟨request, driver⟩ := turn
  cases request with
  | measurement request =>
    refine .inl ⟨?_, rfl⟩
    simp only [serve, hsame.getMeasurement]
  | eventLog request =>
    rw [serve_eventLog, serve_eventLog]
    have hdocument := hsame.eventLogDocument request
    cases hresult : eventLogDocument settings tree request with
    | error fault =>
      rw [hresult] at hdocument
      rw [getEventLog_of_error hresult, getEventLog_of_error hdocument.symm]
      exact .inl ⟨rfl, rfl⟩
    | ok document =>
      rw [hresult] at hdocument
      rw [getEventLog_of_ok hresult, getEventLog_of_ok hdocument.symm,
        h.cacheDocument (hapart.plain _ List.mem_cons_self)]
      exact .inr ⟨rfl, .inr ⟨document, rfl⟩⟩

/-- A request that is repeated changes nothing any more. -/
theorem serve_serve (hapart : settings.KeepsApart) (hlong : settings.LongNamesApart) (tree : FileTree) (turn : Turn) :
    serve settings (serve settings tree turn).2 turn = serve settings tree turn := by
  have hcached : Cached settings tree (serve settings tree turn).2 := by
    obtain ⟨-, hsame⟩ | ⟨-, hcached⟩ := Cached.serve_cases (u := tree) hapart hlong (.inl rfl) turn
    · exact .inl hsame
    · exact hcached
  obtain ⟨hserved, -⟩ | ⟨hserved, -⟩ := hcached.serve_cases hapart hlong turn
  · exact hserved
  · exact hserved

/-- The answers of a session whose requests all meet the same driver. -/
def answers (settings : Settings) (tree : FileTree) (driver : Driver) (requests : List Request) : List Answer :=
  (serveAll settings tree (requests.map fun request => ⟨request, driver⟩)).1

/-- The answer to a request that is the only one. -/
def answer (settings : Settings) (tree : FileTree) (driver : Driver) (request : Request) : Answer :=
  (serve settings tree ⟨request, driver⟩).1

/-- A run of requests. -/
theorem Cached.answers_eq (hapart : settings.KeepsApart) (hlong : settings.LongNamesApart) (driver : Driver)
    (requests : List Request) {u : FileTree} (h : Cached settings tree u) :
    answers settings u driver requests = requests.map (answer settings tree driver) := by
  induction requests generalizing u with
  | nil => rfl
  | cons request rest ih =>
    have hstep : answers settings u driver (request :: rest) =
        answer settings u driver request :: answers settings (serve settings u ⟨request, driver⟩).2 driver rest := rfl
    rw [hstep, List.map_cons, answer, answer]
    obtain ⟨hserved, -⟩ | ⟨hserved, hcached⟩ := h.serve_cases hapart hlong ⟨request, driver⟩
    · rw [hserved, ih h]
    · rw [hserved, ih hcached]

theorem answer_eventLog (driver : Driver) (request : EventLogRequest) :
    answer settings tree driver (.eventLog request) =
      .eventLog ((getEventLog settings tree request).1.map fun path =>
        ⟨path, (getEventLog settings tree request).2.read path⟩) := by
  rw [answer, serve_eventLog]

/-- A request that fails in another way after a first one tells that the first one was there. -/
theorem answers_ne {first second : EventLogRequest} {fault other : ServiceFault} (driver : Driver)
    (h : (getEventLog settings tree second).1 = .error fault)
    (hafter : (getEventLog settings (getEventLog settings tree first).2 second).1 = .error other)
    (hne : other ≠ fault) :
    answers settings tree driver [.eventLog first, .eventLog second] ≠
      [.eventLog first, .eventLog second].map (answer settings tree driver) := by
  intro heq
  have hsecond : answer settings (serve settings tree ⟨.eventLog first, driver⟩).2 driver (.eventLog second) =
      answer settings tree driver (.eventLog second) := (List.cons.inj (List.cons.inj heq).2).1
  rw [serve_eventLog, answer_eventLog, answer_eventLog, h, hafter] at hsecond
  cases hsecond
  exact hne rfl

/-- **Requests are stateless.** Where evidence lies apart from the cache, every answer of a session is the one that the
request gets on its own, a request that is repeated changes nothing any more, and requests in another order get their
answers in that order. -/
theorem session_stateless (hapart : settings.KeepsApart) (hlong : settings.LongNamesApart) (tree : FileTree)
    (driver : Driver) (requests : List Request) :
    answers settings tree driver requests = requests.map (answer settings tree driver) ∧
    (∀ request, serve settings (serve settings tree ⟨request, driver⟩).2 ⟨request, driver⟩ =
      serve settings tree ⟨request, driver⟩) ∧
    ∀ reordered, requests.Perm reordered → (requests.zip (answers settings tree driver requests)).Perm
      (reordered.zip (answers settings tree driver reordered)) := by
  have hanswers : ∀ requests, answers settings tree driver requests = requests.map (answer settings tree driver) :=
    fun requests => Cached.answers_eq hapart hlong driver requests (.inl rfl)
  refine ⟨hanswers requests, fun request => serve_serve hapart hlong tree _, fun reordered hperm => ?_⟩
  rw [hanswers, hanswers, ← List.map_prod_left_eq_zip, ← List.map_prod_left_eq_zip]
  exact hperm.map _

/-- An empty document is cached, and a log is missing, with the default settings in an empty tree. -/
theorem session_stateless_sample :
    ({} : Settings).KeepsApart ∧ ({} : Settings).LongNamesApart ∧
      answers {} .empty .absent [.eventLog ⟨0, 0, 0, 0⟩, .eventLog ⟨1, 1, 0, 0⟩] =
        [.eventLog (.ok ⟨"/run/ccnp-eventlog/eventlog.log", .ok []⟩),
          .eventLog (.error (.evidence (.eventLogNotFound "/sys/kernel/security/tpm0/binary_bios_measurements")))] := by
  have hapart : ({} : Settings).KeepsApart := ⟨by decide +kernel, by decide +kernel, by decide +kernel⟩
  have hlong : ({} : Settings).LongNamesApart := .of_short (by decide +kernel)
  have hcached : (getEventLog {} .empty ⟨0, 0, 0, 0⟩).1 = .ok "/run/ccnp-eventlog/eventlog.log" := by decide +kernel
  have hcontent : (getEventLog {} .empty ⟨0, 0, 0, 0⟩).2.read "/run/ccnp-eventlog/eventlog.log" = .ok [] := by
    decide +kernel
  have hmissing : (getEventLog {} .empty ⟨1, 1, 0, 0⟩).1 =
      .error (.evidence (.eventLogNotFound "/sys/kernel/security/tpm0/binary_bios_measurements")) := by decide +kernel
  refine ⟨hapart, hlong, ?_⟩
  rw [(session_stateless hapart hlong .empty .absent _).1, List.map_cons, List.map_cons, List.map_nil, answer, answer,
    serve_eventLog, serve_eventLog, hcached, hmissing, Except.map, Except.map, hcontent]

/-- The log of the TPM has a name that is too long, in the cache directory. -/
def longNameSettings : Settings :=
  { cacheDirectory := "/c", devices := { tpm := { eventLog := "/c/" ++ String.ofList (List.replicate 256 'n') } } }

/-- A name that is too long is told from one that is missing as soon as the cache directory is there. -/
theorem not_stateless_of_longName :
    longNameSettings.KeepsApart ∧
      answers longNameSettings .empty .absent [.eventLog ⟨0, 0, 0, 0⟩, .eventLog ⟨1, 1, 0, 0⟩] ≠
        [.eventLog ⟨0, 0, 0, 0⟩, .eventLog ⟨1, 1, 0, 0⟩].map (answer longNameSettings .empty .absent) := by
  -- one evaluation for all, since each of them has to take the long name apart
  have hall : ((∀ path ∈ longNameSettings.cacheDirectory :: longNameSettings.inputs, Path.Plain path) ∧
      (∀ path ∈ longNameSettings.inputs, ¬ Path.place longNameSettings.cachePath <+: Path.place path) ∧
      ∀ path ∈ longNameSettings.inputs, ¬ Path.place path <+: Path.place longNameSettings.cacheDirectory) ∧
      (getEventLog longNameSettings .empty ⟨1, 1, 0, 0⟩).1 =
        .error (.evidence (.eventLogNotFound longNameSettings.devices.tpm.eventLog)) ∧
      (getEventLog longNameSettings (getEventLog longNameSettings .empty ⟨0, 0, 0, 0⟩).2 ⟨1, 1, 0, 0⟩).1 =
        .error (.evidence (.unreadable longNameSettings.devices.tpm.eventLog .nameTooLong)) := by decide +kernel
  obtain ⟨⟨hplain, hfile, hdirectory⟩, hmissing, hlong⟩ := hall
  exact ⟨⟨hplain, hfile, hdirectory⟩, answers_ne .absent hmissing hlong (by simp)⟩

end Service

end Attestation
