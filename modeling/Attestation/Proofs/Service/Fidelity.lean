import Attestation.Proofs.Ccel.Locate
import Attestation.Proofs.EventLog.Lossless
import Attestation.Proofs.Service.Frame

/-!
# Documents show the evidence as it was found

* `Ccel.areaAddress_of_locate` : the address of the log area is a word of the table as it was read;
* `StageFails` : the first stage that fails, of finding the log, decoding it and cutting the window;
* `getEventLog_fidelity` : a served request leaves a document in the cache file that is read back as the window and
  shows it byte for byte, and one that fails for want of evidence tells the first stage that failed.
-/

namespace Attestation

namespace Ccel

theorem areaAddress_of_locate {tree : FileTree} {paths : Paths} {located : Located}
    (h : locate tree paths = .ok located) :
    located.table.areaAddress.toNat = Bytes.toNatLE ((located.table.raw.drop 48).take 8) := by
  obtain ⟨⟨path, raw, -, -, hparse⟩, -⟩ := locate_eq_ok_iff.1 h
  obtain ⟨-, hraw, -, haddress⟩ := parse_eq_ok hparse
  rw [haddress, hraw]

end Ccel

namespace Service

variable {settings : Settings} {tree : FileTree} {start count : Nat} {fault : Fault}

/-! ## Stages -/

/-- The first stage on the way to a window fails: to find the event log, to decode it, or to cut the window. -/
inductive StageFails (settings : Settings) (tree : FileTree) (start count : Nat) : Fault → Prop where
  | locate {fault : Fault} (h : Ccel.locate tree settings.ccel = .error fault) :
      StageFails settings tree start count fault
  | decode {fault : Fault} {located : Ccel.Located} (hl : Ccel.locate tree settings.ccel = .ok located)
      (h : EventLog.decode located.data = .error fault) : StageFails settings tree start count fault
  | window {fault : Fault} {located : Ccel.Located} {log : EventLog} (hl : Ccel.locate tree settings.ccel = .ok located)
      (hd : EventLog.decode located.data = .ok log)
      (h : (log.withAddress located.table.areaAddress).window start count = .error fault) :
      StageFails settings tree start count fault

theorem ccelDocument_of_locate {located : Ccel.Located} (hl : Ccel.locate tree settings.ccel = .ok located) :
    ccelDocument settings tree start count = (EventLog.decode located.data).bind fun log =>
      ((log.withAddress located.table.areaAddress).window start count).map
        (EventLog.document settings.digestStyle) := by
  simp only [ccelDocument, hl, Ccel.Located.decode, Bind.bind, Except.bind]
  cases EventLog.decode located.data with
  | error fault => rfl
  | ok log =>
    simp only [Pure.pure, Except.pure]
    cases (log.withAddress located.table.areaAddress).window start count <;> rfl

theorem ccelDocument_eq_error :
    ccelDocument settings tree start count = .error fault ↔ StageFails settings tree start count fault := by
  constructor
  · intro h
    cases hl : Ccel.locate tree settings.ccel with
    | error fault' =>
      simp only [ccelDocument, hl, Bind.bind, Except.bind] at h
      cases h
      exact .locate hl
    | ok located =>
      rw [ccelDocument_of_locate hl] at h
      cases hd : EventLog.decode located.data with
      | error fault' =>
        rw [hd] at h
        cases h
        exact .decode hl hd
      | ok log =>
        rw [hd] at h
        cases hw : (log.withAddress located.table.areaAddress).window start count with
        | error fault' =>
          rw [Except.bind, hw] at h
          cases h
          exact .window hl hd hw
        | ok window =>
          rw [Except.bind, hw] at h
          cases h
  · intro h
    cases h with
    | locate hl => simp only [ccelDocument, hl, Bind.bind, Except.bind]
    | decode hl hd => rw [ccelDocument_of_locate hl, hd]; rfl
    | window hl hd hw => rw [ccelDocument_of_locate hl, hd, Except.bind, hw]; rfl

theorem ccelDocument_eq_ok {document : String} (h : ccelDocument settings tree start count = .ok document) :
    ∃ located log window, Ccel.locate tree settings.ccel = .ok located ∧ EventLog.decode located.data = .ok log ∧
      (log.withAddress located.table.areaAddress).window start count = .ok window ∧
      document = window.document settings.digestStyle := by
  obtain ⟨located, hl, h⟩ := bind_eq_ok_iff.1 h
  obtain ⟨addressed, haddressed, h⟩ := bind_eq_ok_iff.1 h
  obtain ⟨log, hd, haddress⟩ := bind_eq_ok_iff.1 haddressed
  obtain ⟨window, hw, h⟩ := bind_eq_ok_iff.1 h
  cases h
  cases haddress
  exact ⟨located, log, window, hl, hd, hw, rfl⟩

/-! ## Requests -/

/-- A request for a window of the firmware's event log. -/
theorem eventLogDocument_ccel {request : EventLogRequest} (hlevel : request.level = 1)
    (hcategory : request.category = 0) (hstart : 0 ≤ request.start) (hcount : 0 ≤ request.count) :
    eventLogDocument settings tree request =
      (ccelDocument settings tree request.start.toNat request.count.toNat).mapError .evidence := by
  have hnonneg : ∀ (defect : Int → RequestDefect) (value : Int), 0 ≤ value →
      nonNegative defect value = .ok value.toNat := fun _ _ h => if_neg (Int.not_lt.2 h)
  simp [eventLogDocument, hnonneg _ _ hstart, hnonneg _ _ hcount, hlevel, hcategory, Level.ofNumber,
    EventLogCategory.ofNumber, guestEventLog, Bind.bind, Except.bind]

/-- **Fidelity of served event logs.** A served request for the firmware's event log leaves the document of the window
in the cache file. Where the length of the log that was found fits into 64 bits, this text is JSON that is read back, as
a value and as the window in the style of the settings. The value shows the address of the table and the bytes of the
log, from the record that the window begins with on, and up to the end of the log if the whole log was asked for. A
request that fails for want of evidence tells the first stage that failed, and nothing is written. -/
theorem getEventLog_fidelity (settings : Settings) (tree : FileTree) (request : EventLogRequest)
    (hlevel : request.level = 1) (hcategory : request.category = 0) (hstart : 0 ≤ request.start)
    (hcount : 0 ≤ request.count) :
    (∀ path after, getEventLog settings tree request = (.ok path, after) →
      ∃ located log window, Ccel.locate tree settings.ccel = .ok located ∧
        EventLog.decode located.data = .ok log ∧
        (log.withAddress located.table.areaAddress).window request.start.toNat request.count.toNat = .ok window ∧
        after.read path = .ok (Bytes.ofText (window.document settings.digestStyle)) ∧
        (located.data.length < UInt64.size →
          Json.read? (window.document settings.digestStyle) = some (window.toDatum settings.digestStyle) ∧
          EventLog.ofDocument? settings.digestStyle (window.document settings.digestStyle) = some window) ∧
        EventLog.Shows (window.toDatum settings.digestStyle)
          (Bytes.toNatLE ((located.table.raw.drop 48).take 8)) located.data log.header.length
          (if request.count = 0 then log.header.length else log.boundary request.start.toNat)
          (window.events.map EventLog.Event.raw) ∧
        (request.count = 0 → EventLog.Ended
          (located.data.drop (log.header.length + (window.events.map EventLog.Event.raw).flatten.length)))) ∧
    ∀ fault after, getEventLog settings tree request = (.error (.evidence fault), after) ↔
      StageFails settings tree request.start.toNat request.count.toNat fault ∧ after = tree := by
  have hdocument : eventLogDocument settings tree request =
      (ccelDocument settings tree request.start.toNat request.count.toNat).mapError .evidence :=
    eventLogDocument_ccel hlevel hcategory hstart hcount
  refine ⟨fun path after h => ?_, fun fault after => ⟨fun h => ?_, ?_⟩⟩
  · obtain ⟨document, grown, place, hok, rfl, -, hwrites, rfl⟩ := getEventLog_ok h
    rw [hdocument] at hok
    cases hccel : ccelDocument settings tree request.start.toNat request.count.toNat with
    | error fault => rw [hccel] at hok; cases hok
    | ok document' =>
      rw [hccel] at hok
      cases hok
      obtain ⟨located, log, window, hl, hd, hw, rfl⟩ := ccelDocument_eq_ok hccel
      have hshows := EventLog.shows_of_window hd hw settings.digestStyle
      rw [Ccel.areaAddress_of_locate hl] at hshows
      have hzero : request.count.toNat = 0 ↔ request.count = 0 := by omega
      rw [EventLog.boundary_windowStart, if_congr hzero rfl rfl] at hshows
      refine ⟨located, log, window, hl, hd, hw, hwrites.read _, fun hdata => ?_, hshows, fun hcount => ?_⟩
      · have hlog : log.FitsWords := EventLog.fitsWords_of_decode hd hdata
        have hwindow : window.FitsWords := EventLog.fitsWords_of_window (hlog.withAddress _) hw
        exact ⟨EventLog.read?_document _ hwindow, EventLog.ofDocument?_document _ hwindow⟩
      · rw [hzero.2 hcount] at hw
        exact EventLog.ended_of_window hd hw
  · obtain ⟨-, ⟨cause, hcause⟩ | ⟨herror, hsame⟩⟩ := getEventLog_error h
    · cases hcause
    · rw [hdocument] at herror
      cases hccel : ccelDocument settings tree request.start.toNat request.count.toNat with
      | error fault' =>
        rw [hccel] at herror
        cases herror
        exact ⟨ccelDocument_eq_error.1 hccel, hsame⟩
      | ok document =>
        rw [hccel] at herror
        cases herror
  · rintro ⟨hfails, rfl⟩
    rw [ccelDocument_eq_error.2 hfails] at hdocument
    exact getEventLog_of_error hdocument

/-- An installation with short paths. -/
def sampleSettings : Settings :=
  { cacheDirectory := "/c", ccel := { table := "/t", tableMount := "/run/t", data := "/d", dataMount := "/run/d" } }

/-- A table of which the log area lies at address 5. -/
def sampleTable : Ccel.Table :=
  { raw := Ccel.signature ++ List.replicate 44 0 ++ 5 :: List.replicate 7 0, areaLength := 0, areaAddress := 5 }

/-- A tree with that table and with a log of two events. -/
def sampleTree : FileTree :=
  (FileTree.empty.put ["t"] (.file sampleTable.raw)).put ["d"] (.file EventLog.sampleBytes)

theorem locate_sampleTree : Ccel.locate sampleTree sampleSettings.ccel = .ok ⟨sampleTable, EventLog.sampleBytes⟩ := by
  decide +kernel

/-- The first of the two events is served, and read back from the file. -/
theorem getEventLog_fidelity_sample :
    ∃ after window, getEventLog sampleSettings sampleTree ⟨1, 0, 0, 1⟩ = (.ok "/c/eventlog.log", after) ∧
      (EventLog.sampleLog.withAddress 5).window 0 1 = .ok window ∧
      after.read "/c/eventlog.log" = .ok (Bytes.ofText (window.document .byteArray)) ∧
      Json.read? (window.document .byteArray) = some (window.toDatum .byteArray) ∧
      EventLog.ofDocument? .byteArray (window.document .byteArray) = some window ∧
      EventLog.Shows (window.toDatum .byteArray) 5 EventLog.sampleBytes EventLog.sampleLog.header.length
        (EventLog.sampleLog.boundary 0) (window.events.map EventLog.Event.raw) := by
  have hserved : (getEventLog sampleSettings sampleTree ⟨1, 0, 0, 1⟩).1 = .ok "/c/eventlog.log" := by decide +kernel
  obtain ⟨located, log, window, hl, hd, hw, hread, hback, hshows, -⟩ :=
    (getEventLog_fidelity sampleSettings sampleTree ⟨1, 0, 0, 1⟩ rfl rfl (by decide) (by decide)).1 _ _
      (Prod.ext hserved rfl)
  rw [locate_sampleTree] at hl
  cases hl
  rw [EventLog.decode_sampleBytes] at hd
  cases hd
  obtain ⟨hvalue, hwindow⟩ := hback (by decide +kernel)
  exact ⟨_, window, Prod.ext hserved rfl, hw, hread, hvalue, hwindow, hshows⟩

end Service

end Attestation
