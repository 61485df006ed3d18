import Attestation.Ccel.Locate
import Attestation.Proofs.Ccel.Table
import Attestation.Proofs.FileTree.Unseen
import Attestation.Proofs.Stages

/-!
# Which files the event log is taken from

The table and the log are each looked for in a mount and at the host's place.

* `Chosen` : the mounted file if it exists, else the host's;
* `FileFails`, `TableFails`, `DataFails` : why there is no file, no table, and no log;
* `locate_eq_ok_iff`, `locate_eq_error_iff` : what is found, and that a failure of the table comes first;
* `locate_precedence` : where a mounted file exists, the host's is not looked at, whatever the mounted one holds.
-/

namespace Attestation

namespace Ccel
open FileTree (Unseen)

variable {tree : FileTree} {mount host path : String} {content : Bytes} {fault : Fault}

/-! ## One file -/

/-- The mounted file is chosen if it exists, else the host's if that exists. -/
inductive Chosen (tree : FileTree) (mount host : String) : String → Prop where
  | mounted (h : tree.exists? mount = true) : Chosen tree mount host mount
  | hosted (hm : tree.exists? mount = false) (hh : tree.exists? host = true) : Chosen tree mount host host

/-- Neither file exists, or the chosen one cannot be read. -/
inductive FileFails (tree : FileTree) (mount host : String) : Fault → Prop where
  | missing (hm : tree.exists? mount = false) (hh : tree.exists? host = false) :
      FileFails tree mount host .tableNotFound
  | unreadable {path : String} {cause : OsError} (hc : Chosen tree mount host path)
      (h : tree.read path = .error cause) : FileFails tree mount host (.unreadable path cause)

theorem chosen_or_missing (tree : FileTree) (mount host : String) :
    (∃ path, Chosen tree mount host path) ∨ tree.exists? mount = false ∧ tree.exists? host = false := by
  cases hm : tree.exists? mount with
  | true => exact .inl ⟨_, .mounted hm⟩
  | false =>
    cases hh : tree.exists? host with
    | true => exact .inl ⟨_, .hosted hm hh⟩
    | false => exact .inr ⟨rfl, rfl⟩

/-- The contents of the first of the paths at which something stands. -/
def readFirst (tree : FileTree) (candidates : List String) : Except Fault Bytes :=
  firstExisting tree candidates >>= readFile tree

theorem firstExisting_eq_ok_iff : firstExisting tree [mount, host] = .ok path ↔ Chosen tree mount host path := by
  constructor
  · intro h
    cases hm : tree.exists? mount with
    | true =>
      simp only [firstExisting, List.find?_cons, hm] at h
      cases h
      exact .mounted hm
    | false =>
      cases hh : tree.exists? host with
      | true =>
        simp only [firstExisting, List.find?_cons, hm, hh] at h
        cases h
        exact .hosted hm hh
      | false =>
        simp only [firstExisting, List.find?_cons, hm, hh] at h
        cases h
  · rintro (hm | ⟨hm, hh⟩)
    · simp [firstExisting, hm]
    · simp [firstExisting, hm, hh]

theorem firstExisting_eq_error_iff :
    firstExisting tree [mount, host] = .error fault ↔
      (tree.exists? mount = false ∧ tree.exists? host = false) ∧ fault = .tableNotFound := by
  constructor
  · intro h
    rcases chosen_or_missing tree mount host with ⟨path, hchosen⟩ | hmissing
    · rw [firstExisting_eq_ok_iff.2 hchosen] at h
      cases h
    · refine ⟨hmissing, ?_⟩
      simp only [firstExisting, List.find?_cons, hmissing] at h
      cases h
      rfl
  · rintro ⟨⟨hm, hh⟩, rfl⟩
    simp [firstExisting, hm, hh]

theorem readFile_eq_ok_iff : readFile tree path = .ok content ↔ tree.read path = .ok content := by
  unfold readFile
  cases tree.read path <;> simp

theorem readFile_eq_error_iff :
    readFile tree path = .error fault ↔ ∃ cause, tree.read path = .error cause ∧ fault = .unreadable path cause := by
  unfold readFile
  cases tree.read path <;> simp [eq_comm]

theorem readFirst_eq_ok_iff :
    readFirst tree [mount, host] = .ok content ↔
      ∃ path, Chosen tree mount host path ∧ tree.read path = .ok content := by
  simp only [readFirst, bind_eq_ok_iff, firstExisting_eq_ok_iff, readFile_eq_ok_iff]

theorem readFirst_eq_error_iff : readFirst tree [mount, host] = .error fault ↔ FileFails tree mount host fault := by
  simp only [readFirst, bind_eq_error_iff, firstExisting_eq_ok_iff, firstExisting_eq_error_iff, readFile_eq_error_iff]
  constructor
  · rintro (⟨⟨hm, hh⟩, rfl⟩ | ⟨path, hchosen, cause, hread, rfl⟩)
    · exact .missing hm hh
    · exact .unreadable hchosen hread
  · rintro (⟨hm, hh⟩ | ⟨hchosen, hread⟩)
    · exact .inl ⟨⟨hm, hh⟩, rfl⟩
    · exact .inr ⟨_, hchosen, _, hread, rfl⟩

/-! ## The two files -/

/-- The chosen file holds the table. -/
def TableIn (tree : FileTree) (mount host : String) (table : Table) : Prop :=
  ∃ path raw, Chosen tree mount host path ∧ tree.read path = .ok raw ∧ Table.parse raw = .ok table

/-- The chosen file holds the log, which is not empty. -/
def DataIn (tree : FileTree) (mount host : String) (data : Bytes) : Prop :=
  ∃ path, Chosen tree mount host path ∧ tree.read path = .ok data ∧ data ≠ []

/-- There is no file, or the chosen one holds no table. -/
inductive TableFails (tree : FileTree) (mount host : String) : Fault → Prop where
  | file {fault : Fault} (h : FileFails tree mount host fault) : TableFails tree mount host fault
  | invalid {path : String} {raw : Bytes} {defect : TableDefect} (hc : Chosen tree mount host path)
      (hr : tree.read path = .ok raw) (h : Table.parse raw = .error (.invalidTable defect)) :
      TableFails tree mount host (.invalidTable defect)

/-- There is no file, or the chosen one is empty. -/
inductive DataFails (tree : FileTree) (mount host : String) : Fault → Prop where
  | file {fault : Fault} (h : FileFails tree mount host fault) : DataFails tree mount host fault
  | empty {path : String} (hc : Chosen tree mount host path) (hr : tree.read path = .ok []) :
      DataFails tree mount host .tableNotFound

def readTable (tree : FileTree) (mount host : String) : Except Fault Table :=
  readFirst tree [mount, host] >>= Table.parse

def readData (tree : FileTree) (mount host : String) : Except Fault Bytes :=
  readFirst tree [mount, host] >>= fun data => if data.isEmpty then .error .tableNotFound else .ok data

theorem readTable_eq_ok_iff {table : Table} :
    readTable tree mount host = .ok table ↔ TableIn tree mount host table := by
  simp only [readTable, bind_eq_ok_iff, readFirst_eq_ok_iff, TableIn]
  constructor
  · rintro ⟨raw, ⟨path, hchosen, hread⟩, hparse⟩
    exact ⟨path, raw, hchosen, hread, hparse⟩
  · rintro ⟨path, raw, hchosen, hread, hparse⟩
    exact ⟨raw, ⟨path, hchosen, hread⟩, hparse⟩

theorem readTable_eq_error_iff : readTable tree mount host = .error fault ↔ TableFails tree mount host fault := by
  simp only [readTable, bind_eq_error_iff, readFirst_eq_ok_iff, readFirst_eq_error_iff]
  constructor
  · rintro (hfile | ⟨raw, ⟨path, hchosen, hread⟩, hparse⟩)
    · exact .file hfile
    · obtain ⟨defect, rfl⟩ := parse_eq_error hparse
      exact .invalid hchosen hread hparse
  · rintro (hfile | ⟨hchosen, hread, hparse⟩)
    · exact .inl hfile
    · exact .inr ⟨_, ⟨_, hchosen, hread⟩, hparse⟩

theorem readData_eq_ok_iff {data : Bytes} : readData tree mount host = .ok data ↔ DataIn tree mount host data := by
  simp only [readData, bind_eq_ok_iff, readFirst_eq_ok_iff, DataIn]
  constructor
  · rintro ⟨content, ⟨path, hchosen, hread⟩, hkept⟩
    cases content with
    | nil => cases hkept
    | cons b bs =>
      cases hkept
      exact ⟨path, hchosen, hread, List.cons_ne_nil b bs⟩
  · rintro ⟨path, hchosen, hread, hne⟩
    exact ⟨data, ⟨path, hchosen, hread⟩, if_neg (by simpa using hne)⟩

theorem readData_eq_error_iff : readData tree mount host = .error fault ↔ DataFails tree mount host fault := by
  simp only [readData, bind_eq_error_iff, readFirst_eq_ok_iff, readFirst_eq_error_iff]
  constructor
  · rintro (hfile | ⟨content, ⟨path, hchosen, hread⟩, hempty⟩)
    · exact .file hfile
    · cases content with
      | nil =>
        cases hempty
        exact .empty hchosen hread
      | cons b bs => cases hempty
  · rintro (hfile | ⟨hchosen, hread⟩)
    · exact .inl hfile
    · exact .inr ⟨[], ⟨_, hchosen, hread⟩, rfl⟩

/-! ## Both files -/

theorem locate_eq (tree : FileTree) (paths : Paths) :
    locate tree paths = readTable tree paths.tableMount paths.table >>= fun table =>
      readData tree paths.dataMount paths.data >>= fun data => .ok ⟨table, data⟩ := by
  unfold readTable readData readFirst
  simp only [bind_assoc]
  refine bind_congr fun tablePath => bind_congr fun raw => bind_congr fun table => bind_congr fun dataPath =>
    bind_congr fun data => ?_
  split <;> rfl

section Located
variable {paths : Paths} {t u : FileTree}

theorem locate_eq_ok_iff {located : Located} :
    locate tree paths = .ok located ↔ TableIn tree paths.tableMount paths.table located.table ∧
      DataIn tree paths.dataMount paths.data located.data := by
  simp only [locate_eq, bind_eq_ok_iff, readTable_eq_ok_iff, readData_eq_ok_iff]
  constructor
  · rintro ⟨table, htable, data, hdata, hlocated⟩
    cases hlocated
    exact ⟨htable, hdata⟩
  · rintro ⟨htable, hdata⟩
    exact ⟨_, htable, _, hdata, rfl⟩

/-- What is wrong with the table counts first. -/
theorem locate_eq_error_iff :
    locate tree paths = .error fault ↔ TableFails tree paths.tableMount paths.table fault ∨
      (∃ table, TableIn tree paths.tableMount paths.table table) ∧
        DataFails tree paths.dataMount paths.data fault := by
  simp only [locate_eq, bind_eq_error_iff, readTable_eq_ok_iff, readTable_eq_error_iff, readData_eq_ok_iff,
    readData_eq_error_iff, reduceCtorEq, and_false, exists_false, or_false, exists_and_right]

/-! ## The host's files -/

theorem readFirst_congr {candidates : List String} (hexists : ∀ path ∈ candidates, t.exists? path = u.exists? path)
    (hread : ∀ path ∈ candidates, t.exists? path = true → t.read path = u.read path) :
    readFirst t candidates = readFirst u candidates := by
  have hfirst : firstExisting t candidates = firstExisting u candidates := by
    rw [firstExisting, firstExisting, List.find?_congr hexists]
  rw [readFirst, readFirst, ← hfirst]
  unfold firstExisting
  cases hfind : candidates.find? t.exists? with
  | none => rfl
  | some path =>
    have hpath := hread path (List.mem_of_find?_eq_some hfind) (List.find?_some hfind)
    simp only [Bind.bind, Except.bind, readFile, hpath]

/-- Where the mounted file exists it is read, and nothing of the host's. -/
theorem readFirst_of_mount (h : tree.exists? mount = true) : readFirst tree [mount, host] = readFile tree mount := by
  rw [readFirst, firstExisting_eq_ok_iff.2 (.mounted h)]
  rfl

theorem readFirst_of_unseen {place : Place} {others : List String} (h : Unseen place others t u)
    (hmount : mount ∈ others) (hhost : t.exists? mount = true ∨ host ∈ others) :
    readFirst t [mount, host] = readFirst u [mount, host] := by
  rcases hhost with hexists | hhost
  · have hexists' : u.exists? mount = true := by rw [← h.exists?_eq hmount, hexists]
    rw [readFirst_of_mount hexists, readFirst_of_mount hexists', readFile, readFile, h.read_eq hmount hexists]
  · have hboth : ∀ path ∈ [mount, host], path ∈ others := by
      simp [hmount, hhost]
    exact readFirst_congr (fun path hpath => h.exists?_eq (hboth path hpath))
      fun path hpath hexists => h.read_eq (hboth path hpath) hexists

/-- What is unseen from both data paths and from the mounted table, where that exists, is not seen at all. -/
theorem locate_of_unseen_table {others : List String} (h : Unseen (Path.place paths.table) others t u)
    (hexists : t.exists? paths.tableMount = true) (htable : paths.tableMount ∈ others)
    (hmount : paths.dataMount ∈ others) (hdata : paths.data ∈ others) : locate u paths = locate t paths := by
  simp only [locate_eq, readTable, readData, readFirst_of_unseen h htable (.inl hexists),
    readFirst_of_unseen h hmount (.inr hdata)]

theorem locate_of_unseen_data {others : List String} (h : Unseen (Path.place paths.data) others t u)
    (hexists : t.exists? paths.dataMount = true) (hmount : paths.dataMount ∈ others)
    (htableMount : paths.tableMount ∈ others) (htable : paths.table ∈ others) : locate u paths = locate t paths := by
  simp only [locate_eq, readTable, readData, readFirst_of_unseen h hmount (.inl hexists),
    readFirst_of_unseen h htableMount (.inr htable)]

end Located

/-! ## Precedence of the mount -/

theorem read_of_isDirectory (h : tree.isDirectory path = true) :
    tree.exists? path = true ∧ tree.read path = .error .isADirectory := by
  obtain ⟨p, hresolve, hdir⟩ := FileTree.isDirectory_iff.1 h
  refine ⟨FileTree.exists?_iff.2 ⟨p, hresolve⟩, ?_⟩
  rw [FileTree.read_of_resolve hresolve, hdir]

/-- **The mount takes precedence, file by file.** Where the mounted table exists nothing that is changed at the host's
table matters, and where the mounted log exists nothing that is changed at the host's log, as long as the other three
paths lead elsewhere. A mounted directory cannot be read, a mounted file that is no table is invalid, and an empty
mounted log counts as missing: the host's files do not stand in for them. What is found is the table of the chosen
file and the contents of the other chosen file, and the log is decoded from the latter, with the address of its area
from the former and nothing else from there. What is wrong with the table decides, whatever the log files are.

Finding takes the tree as it is and gives none back. -/
theorem locate_precedence (tree : FileTree) (paths : Paths) :
    (tree.exists? paths.tableMount = true → ∀ changed,
      Unseen (Path.place paths.table) [paths.tableMount, paths.dataMount, paths.data] tree changed →
      locate changed paths = locate tree paths) ∧
    (tree.exists? paths.dataMount = true → ∀ changed,
      Unseen (Path.place paths.data) [paths.tableMount, paths.table, paths.dataMount] tree changed →
      locate changed paths = locate tree paths) ∧
    (tree.isDirectory paths.tableMount = true →
      locate tree paths = .error (.unreadable paths.tableMount .isADirectory)) ∧
    (∀ raw fault, tree.read paths.tableMount = .ok raw → Table.parse raw = .error fault →
      (∃ defect, fault = .invalidTable defect) ∧ locate tree paths = .error fault) ∧
    (∀ table, TableIn tree paths.tableMount paths.table table →
      (tree.isDirectory paths.dataMount = true →
        locate tree paths = .error (.unreadable paths.dataMount .isADirectory)) ∧
      (tree.read paths.dataMount = .ok [] → locate tree paths = .error .tableNotFound)) ∧
    (∀ located, locate tree paths = .ok located ↔
      (∃ path raw, Chosen tree paths.tableMount paths.table path ∧ tree.read path = .ok raw ∧
        Table.parse raw = .ok located.table) ∧
      ∃ path, Chosen tree paths.dataMount paths.data path ∧ tree.read path = .ok located.data ∧ located.data ≠ []) ∧
    (∀ located : Located, located.decode = (EventLog.decode located.data).map fun log =>
      { log with header := { log.header with address := located.table.areaAddress } }) ∧
    (∀ fault, locate tree paths = .error fault ↔ TableFails tree paths.tableMount paths.table fault ∨
      (∃ table, TableIn tree paths.tableMount paths.table table) ∧
        DataFails tree paths.dataMount paths.data fault) ∧
    ∀ fault, TableFails tree paths.tableMount paths.table fault → ∀ data dataMount,
      locate tree { paths with data, dataMount } = .error fault := by
  refine ⟨fun hexists changed h => ?_, fun hexists changed h => ?_, fun hdir => ?_, fun raw fault hread hparse => ?_,
    fun table htable => ⟨fun hdir => ?_, fun hempty => ?_⟩, fun located => locate_eq_ok_iff, fun located => ?_,
    fun fault => locate_eq_error_iff, fun fault hfails data dataMount => ?_⟩
  · exact locate_of_unseen_table h hexists (by simp) (by simp) (by simp)
  · exact locate_of_unseen_data h hexists (by simp) (by simp) (by simp)
  · obtain ⟨hexists, hread⟩ := read_of_isDirectory hdir
    exact locate_eq_error_iff.2 (.inl (.file (.unreadable (.mounted hexists) hread)))
  · obtain ⟨defect, rfl⟩ := parse_eq_error hparse
    exact ⟨⟨defect, rfl⟩,
      locate_eq_error_iff.2 (.inl (.invalid (.mounted (FileTree.exists?_of_read hread)) hread hparse))⟩
  · obtain ⟨hexists, hread⟩ := read_of_isDirectory hdir
    exact locate_eq_error_iff.2 (.inr ⟨⟨table, htable⟩, .file (.unreadable (.mounted hexists) hread)⟩)
  · exact locate_eq_error_iff.2 (.inr ⟨⟨table, htable⟩, .empty (.mounted (FileTree.exists?_of_read hempty)) hempty⟩)
  · unfold Located.decode
    cases EventLog.decode located.data <;> rfl
  · exact locate_eq_error_iff.2 (.inl hfails)

/-- An installation with short paths. -/
def shortPaths : Paths := { table := "/t", tableMount := "/m/t", data := "/d", dataMount := "/m/d" }

/-- A tree with files in the mount only. -/
def mountedTree (table data : Entry) : FileTree :=
  ((FileTree.empty.put ["m"] .directory).put ["m", "t"] table).put ["m", "d"] data

/-- Files of the host appear beside good files in the mount, and stand beside a directory, a file that is no table, and
an empty log in the mount. -/
theorem locate_precedence_sample :
    (∀ content, locate ((mountedTree (.file longTable) (.file [7])).put ["t"] (.file content)) shortPaths =
      locate (mountedTree (.file longTable) (.file [7])) shortPaths) ∧
    (∀ content, locate ((mountedTree (.file longTable) (.file [7])).put ["d"] (.file content)) shortPaths =
      locate (mountedTree (.file longTable) (.file [7])) shortPaths) ∧
    locate ((mountedTree (.file longTable) (.file [7])).put ["t"] .directory) shortPaths =
      locate (mountedTree (.file longTable) (.file [7])) shortPaths ∧
    locate ((mountedTree .directory (.file [7])).put ["t"] (.file longTable)) shortPaths =
      .error (.unreadable "/m/t" .isADirectory) ∧
    locate ((mountedTree (.file [7]) (.file [7])).put ["t"] (.file longTable)) shortPaths =
      .error (.invalidTable .wrongSignature) ∧
    locate ((mountedTree (.file longTable) (.file [])).put ["d"] (.file [7])) shortPaths = .error .tableNotFound ∧
    ∃ located, locate (mountedTree (.file longTable) (.file [7])) shortPaths = .ok located ∧ located.data = [7] := by
  have htableFree : (mountedTree (.file longTable) (.file [7])).Free ["t"] :=
    ⟨by decide, by decide +kernel, by decide +kernel⟩
  have hdataFree : (mountedTree (.file longTable) (.file [7])).Free ["d"] :=
    ⟨by decide, by decide +kernel, by decide +kernel⟩
  obtain ⟨htable, hdata, -, -, -, hok, -⟩ := locate_precedence (mountedTree (.file longTable) (.file [7])) shortPaths
  obtain ⟨-, -, hdirectory, -⟩ :=
    locate_precedence ((mountedTree .directory (.file [7])).put ["t"] (.file longTable)) shortPaths
  obtain ⟨-, -, -, hinvalid, -⟩ :=
    locate_precedence ((mountedTree (.file [7]) (.file [7])).put ["t"] (.file longTable)) shortPaths
  obtain ⟨-, -, -, -, hempty, -⟩ :=
    locate_precedence ((mountedTree (.file longTable) (.file [])).put ["d"] (.file [7])) shortPaths
  have hparse : Table.parse longTable = .ok ⟨longTable, 0x101010101010101, 0x101010101010101⟩ := by decide
  refine ⟨fun content => ?_, fun content => ?_, ?_, hdirectory (by decide +kernel), ?_, ?_, ?_⟩
  · exact htable (by decide +kernel) _ (htableFree.unseen content (by decide +kernel))
  · exact hdata (by decide +kernel) _ (hdataFree.unseen content (by decide +kernel))
  · refine htable (by decide +kernel) _ (.of_apart (fun q hq => ?_) ?_)
    · have hne : q ≠ ["t"] := by
        rintro rfl
        exact hq (by decide +kernel)
      rw [htableFree.get?_put, if_neg hne]
    · unfold Path.Plain
      decide +kernel
  · exact (hinvalid [7] _ (by decide +kernel) (by decide)).2
  · exact (hempty _ ⟨"/m/t", longTable, .mounted (by decide +kernel), by decide +kernel, hparse⟩).2 (by decide +kernel)
  · refine ⟨⟨_, [7]⟩, (hok _).2 ⟨⟨"/m/t", longTable, .mounted (by decide +kernel), by decide +kernel, hparse⟩,
      "/m/d", .mounted (by decide +kernel), by decide +kernel, by simp⟩, rfl⟩

end Ccel

end Attestation
