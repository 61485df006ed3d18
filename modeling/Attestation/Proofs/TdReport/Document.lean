import Attestation.Json.Reader
import Attestation.Proofs.Json.Members
import Attestation.Proofs.TdReport.Reserved
import Attestation.TdReport.Document

/-!
# The document of a report shows all but the reserved bytes

* `Datum.block?` : the block that a member writes in hexadecimal digits;
* `ofDatum?`, `ofDocument?` : the report that a value and a document say, with zeros in its reserved fields;
* `ofDocument?_compactText` : a document says the cleared report;
* `document_exact` : equal documents are those of reports that agree at all offsets that are not reserved.
-/

namespace Attestation
open Json (Plain Unescaped Tidy)

/-- The block that a member of a table writes in hexadecimal digits. -/
def Datum.block? (n : Nat) (d : Datum) (name : String) : Option (Block n) :=
  match d.member? name with
  | some (.text s) => Text.Hex.decode? s.toList >>= Block.ofBytes? n
  | _ => none

theorem Block.ofBytes?_bytes {n : Nat} (b : Block n) : Block.ofBytes? n b.bytes = some b := dif_pos b.length_eq

theorem Datum.block?_of_member? {d : Datum} {name : String} {n : Nat} {b : Block n}
    (h : d.member? name = some (TdReport.hexDatum b)) : d.block? n name = some b := by
  have hread : Text.Hex.decode? (Text.Hex.encode b.bytes).toList = some b.bytes := by
    rw [Text.Hex.encode, String.toList_ofList, Text.Hex.decode?_digits]
  simp only [Datum.block?, h, TdReport.hexDatum, hread, Option.bind_eq_bind, Option.bind_some, b.ofBytes?_bytes]

namespace TdReport

/-! ## Reading documents -/

def TransportType.ofDatum? (d : Datum) : Option TransportType := do
  let kind ← d.number? "type"
  let subKind ← d.number? "sub_type"
  let version ← d.number? "version"
  return { kind := .ofNat kind, subKind := .ofNat subKind, version := .ofNat version, reserved := 0 }

def Mac.ofDatum? (d : Datum) : Option Mac := do
  let reportType ← d.member? "report_type" >>= TransportType.ofDatum?
  let cpuSvn ← d.block? 16 "cpu_svn"
  let tcbInfoHash ← d.block? 48 "tee_tcb_info_hash"
  let infoHash ← d.block? 48 "tee_info_hash"
  let reportData ← d.block? 64 "report_data"
  let mac ← d.block? 32 "mac"
  return { reportType, reserved1 := .zeros 12, cpuSvn, tcbInfoHash, infoHash, reportData, reserved2 := .zeros 32, mac }

def TcbInfo.ofDatum? (d : Datum) : Option TcbInfo := do
  let valid ← d.block? 8 "valid"
  let svn ← d.block? 16 "tee_tcb_svn"
  let mrSeam ← d.block? 48 "mrseam"
  let mrSignerSeam ← d.block? 48 "mrsigner_seam"
  let attributes ← d.block? 8 "attributes"
  return { valid, svn, mrSeam, mrSignerSeam, attributes, reserved := .zeros 111 }

def Info.ofDatum? (d : Datum) : Option Info := do
  let attributes ← d.block? 8 "attributes"
  let xfam ← d.block? 8 "xfam"
  let mrTd ← d.block? 48 "mrtd"
  let mrConfigId ← d.block? 48 "mrconfigid"
  let mrOwner ← d.block? 48 "mrowner"
  let mrOwnerConfig ← d.block? 48 "mrownerconfig"
  let rtmr ← d.block? 192 "rtmr"
  return { attributes, xfam, mrTd, mrConfigId, mrOwner, mrOwnerConfig, rtmr, reserved := .zeros 112 }

def ofDatum? (d : Datum) : Option TdReport := do
  let mac ← d.member? "report_mac" >>= Mac.ofDatum?
  let tcbInfo ← d.member? "tee_tcb_info" >>= TcbInfo.ofDatum?
  let info ← d.member? "tdinfo" >>= Info.ofDatum?
  return { mac, tcbInfo, reserved := .zeros 17, info }

/-- The report that a document says, with zeros in its reserved fields. -/
def ofDocument? (text : String) : Option TdReport := Json.read? text >>= ofDatum?

theorem TransportType.ofDatum?_toDatum (t : TransportType) : TransportType.ofDatum? t.toDatum = some t.cleared := by
  have hkind : t.toDatum.number? "type" = some t.kind.toNat := rfl
  have hsub : t.toDatum.number? "sub_type" = some t.subKind.toNat := rfl
  have hversion : t.toDatum.number? "version" = some t.version.toNat := rfl
  simp only [TransportType.ofDatum?, hkind, hsub, hversion, Option.bind_eq_bind, Option.bind_some, Option.pure_def,
    UInt8.ofNat_toNat]
  rfl

theorem Mac.ofDatum?_toDatum (m : Mac) : Mac.ofDatum? m.toDatum = some m.cleared := by
  have htype : m.toDatum.member? "report_type" = some m.reportType.toDatum := rfl
  have hsvn : m.toDatum.block? 16 "cpu_svn" = some m.cpuSvn := Datum.block?_of_member? rfl
  have htcb : m.toDatum.block? 48 "tee_tcb_info_hash" = some m.tcbInfoHash := Datum.block?_of_member? rfl
  have hinfo : m.toDatum.block? 48 "tee_info_hash" = some m.infoHash := Datum.block?_of_member? rfl
  have hdata : m.toDatum.block? 64 "report_data" = some m.reportData := Datum.block?_of_member? rfl
  have hmac : m.toDatum.block? 32 "mac" = some m.mac := Datum.block?_of_member? rfl
  simp only [Mac.ofDatum?, htype, TransportType.ofDatum?_toDatum, hsvn, htcb, hinfo, hdata, hmac, Option.bind_eq_bind,
    Option.bind_some, Option.pure_def]
  rfl

theorem TcbInfo.ofDatum?_toDatum (t : TcbInfo) : TcbInfo.ofDatum? t.toDatum = some t.cleared := by
  have hvalid : t.toDatum.block? 8 "valid" = some t.valid := Datum.block?_of_member? rfl
  have hsvn : t.toDatum.block? 16 "tee_tcb_svn" = some t.svn := Datum.block?_of_member? rfl
  have hseam : t.toDatum.block? 48 "mrseam" = some t.mrSeam := Datum.block?_of_member? rfl
  have hsigner : t.toDatum.block? 48 "mrsigner_seam" = some t.mrSignerSeam := Datum.block?_of_member? rfl
  have hattributes : t.toDatum.block? 8 "attributes" = some t.attributes := Datum.block?_of_member? rfl
  simp only [TcbInfo.ofDatum?, hvalid, hsvn, hseam, hsigner, hattributes, Option.bind_eq_bind, Option.bind_some,
    Option.pure_def]
  rfl

theorem Info.ofDatum?_toDatum (i : Info) : Info.ofDatum? i.toDatum = some i.cleared := by
  have hattributes : i.toDatum.block? 8 "attributes" = some i.attributes := Datum.block?_of_member? rfl
  have hxfam : i.toDatum.block? 8 "xfam" = some i.xfam := Datum.block?_of_member? rfl
  have htd : i.toDatum.block? 48 "mrtd" = some i.mrTd := Datum.block?_of_member? rfl
  have hconfig : i.toDatum.block? 48 "mrconfigid" = some i.mrConfigId := Datum.block?_of_member? rfl
  have howner : i.toDatum.block? 48 "mrowner" = some i.mrOwner := Datum.block?_of_member? rfl
  have hownerConfig : i.toDatum.block? 48 "mrownerconfig" = some i.mrOwnerConfig := Datum.block?_of_member? rfl
  have hrtmr : i.toDatum.block? 192 "rtmr" = some i.rtmr := Datum.block?_of_member? rfl
  simp only [Info.ofDatum?, hattributes, hxfam, htd, hconfig, howner, hownerConfig, hrtmr, Option.bind_eq_bind,
    Option.bind_some, Option.pure_def]
  rfl

/-- **The value of a document says its report**, every field of it that is not reserved. -/
theorem ofDatum?_toDatum (r : TdReport) : ofDatum? r.toDatum = some r.cleared := by
  have hmac : r.toDatum.member? "report_mac" = some r.mac.toDatum := rfl
  have htcb : r.toDatum.member? "tee_tcb_info" = some r.tcbInfo.toDatum := rfl
  have hinfo : r.toDatum.member? "tdinfo" = some r.info.toDatum := rfl
  simp only [ofDatum?, hmac, htcb, hinfo, Mac.ofDatum?_toDatum, TcbInfo.ofDatum?_toDatum, Info.ofDatum?_toDatum,
    Option.bind_eq_bind, Option.bind_some, Option.pure_def]
  rfl

/-- Nothing of the reserved fields is in the value of a document. -/
theorem toDatum_cleared (r : TdReport) : r.cleared.toDatum = r.toDatum := rfl

/-! ## Tidy documents -/

def transportTypeNames : List String := ["type", "sub_type", "version"]

def macNames : List String :=
  ["report_type", "cpu_svn", "tee_tcb_info_hash", "tee_info_hash", "report_data", "mac"]

def tcbInfoNames : List String := ["valid", "tee_tcb_svn", "mrseam", "mrsigner_seam", "attributes"]

def infoNames : List String :=
  ["attributes", "xfam", "mrtd", "mrconfigid", "mrowner", "mrownerconfig", "rtmr"]

def documentNames : List String := ["report_mac", "tee_tcb_info", "tdinfo"]

/-- The names of the members of each table. -/
def memberNames : List (List String) := [transportTypeNames, macNames, tcbInfoNames, infoNames, documentNames]

theorem nodup_unescaped : ∀ names ∈ memberNames, names.Nodup ∧ ∀ name ∈ names, Unescaped name := by
  simp [memberNames, transportTypeNames, macNames, tcbInfoNames, infoNames, documentNames, Unescaped, Plain]

theorem tidy_hexDatum {levels n : Nat} (b : Block n) : Tidy Unescaped levels (hexDatum b) :=
  .text (unescaped_hex b.bytes)

theorem TransportType.tidy_toDatum (t : TransportType) : Tidy Unescaped 1 t.toDatum := by
  refine tidy_table (nodup_unescaped transportTypeNames (by simp [memberNames])) ?_
  simp only [List.forall_mem_cons]
  exact ⟨tidy_word8 _, tidy_word8 _, tidy_word8 _, List.forall_mem_nil _⟩

theorem Mac.tidy_toDatum (m : Mac) : Tidy Unescaped 2 m.toDatum := by
  refine tidy_table (nodup_unescaped macNames (by simp [memberNames])) ?_
  simp only [List.forall_mem_cons]
  exact ⟨m.reportType.tidy_toDatum, tidy_hexDatum _, tidy_hexDatum _, tidy_hexDatum _, tidy_hexDatum _,
    tidy_hexDatum _, List.forall_mem_nil _⟩

theorem TcbInfo.tidy_toDatum (t : TcbInfo) : Tidy Unescaped 2 t.toDatum := by
  refine tidy_table (nodup_unescaped tcbInfoNames (by simp [memberNames])) ?_
  simp only [List.forall_mem_cons]
  exact ⟨tidy_hexDatum _, tidy_hexDatum _, tidy_hexDatum _, tidy_hexDatum _, tidy_hexDatum _, List.forall_mem_nil _⟩

theorem Info.tidy_toDatum (i : Info) : Tidy Unescaped 2 i.toDatum := by
  refine tidy_table (nodup_unescaped infoNames (by simp [memberNames])) ?_
  simp only [List.forall_mem_cons]
  exact ⟨tidy_hexDatum _, tidy_hexDatum _, tidy_hexDatum _, tidy_hexDatum _, tidy_hexDatum _, tidy_hexDatum _,
    tidy_hexDatum _, List.forall_mem_nil _⟩

theorem tidy_toDatum (r : TdReport) : Tidy Unescaped 3 r.toDatum := by
  refine tidy_table (nodup_unescaped documentNames (by simp [memberNames])) ?_
  simp only [List.forall_mem_cons]
  exact ⟨r.mac.tidy_toDatum, r.tcbInfo.tidy_toDatum, r.info.tidy_toDatum, List.forall_mem_nil _⟩

/-! ## Documents -/

/-- **A document says its report** but for the reserved bytes. -/
theorem ofDocument?_compactText (r : TdReport) : ofDocument? r.compactText = some r.cleared := by
  rw [ofDocument?, compactText, Json.read?_compactText r.tidy_toDatum (by decide)]
  exact r.ofDatum?_toDatum

theorem compactText_eq_iff {r s : TdReport} : r.compactText = s.compactText ↔ r.cleared = s.cleared := by
  constructor
  · intro h
    have hr := r.ofDocument?_compactText
    rw [h, s.ofDocument?_compactText] at hr
    exact (Option.some.inj hr).symm
  · intro h
    rw [compactText, compactText, ← r.toDatum_cleared, h, s.toDatum_cleared]

theorem compactText_eq_iff_agree {raw other : Bytes} {r s : TdReport} (hr : decode raw = .ok r)
    (hs : decode other = .ok s) : r.compactText = s.compactText ↔ Agree raw other := by
  have hraw : raw = r.toBlock.bytes := by rw [decode_eq_ok_iff.1 hr, flatten_fields]
  have hother : other = s.toBlock.bytes := by rw [decode_eq_ok_iff.1 hs, flatten_fields]
  rw [compactText_eq_iff, cleared_eq_iff, hraw, hother]

/-- **The document of a report shows exactly the bytes that are not reserved.** Two reports have equal documents if and
only if they agree at every other offset. A document is read back as a report with the same bytes there. So a change of
a reserved byte is not seen in the document, and a change of any other byte is. -/
theorem document_exact {raw other : Bytes} (hraw : raw.length = 1024) (hother : other.length = 1024) :
    ∃ report report', decode raw = .ok report ∧ decode other = .ok report' ∧
      (report.compactText = report'.compactText ↔ ∀ o < 1024, ¬ Reserved o → raw[o]? = other[o]?) ∧
      (∃ shown, ofDocument? report.compactText = some shown ∧
        ∀ o < 1024, ¬ Reserved o → shown.toBlock.bytes[o]? = raw[o]?) ∧
      ∀ o < 1024, ∀ b : UInt8, ∃ changed, decode (raw.set o b) = .ok changed ∧
        (changed.compactText = report.compactText ↔ Reserved o ∨ raw[o]? = some b) := by
  have hreport := decode_of_length hraw
  refine ⟨_, _, hreport, decode_of_length hother, compactText_eq_iff_agree hreport (decode_of_length hother),
    ⟨_, ofDocument?_compactText _, ?_⟩, ?_⟩
  · have hbytes : (ofBlock ⟨raw, hraw⟩).toBlock.bytes = raw := congrArg Block.bytes (toBlock_ofBlock ⟨raw, hraw⟩)
    have hagree := (ofBlock ⟨raw, hraw⟩).agree_cleared
    rwa [hbytes] at hagree
  · intro o ho b
    have hset : (raw.set o b).length = 1024 := by rwa [List.length_set]
    refine ⟨_, decode_of_length hset, ?_⟩
    rw [compactText_eq_iff_agree (decode_of_length hset) hreport]
    exact agree_set_iff hraw ho b

/-- The byte at offset 500 is reserved, that at offset 600 is not. -/
theorem document_exact_sample :
    sampleRaw.length = 1024 ∧ (sampleRaw.set 500 0).length = 1024 ∧ sampleRaw.set 500 0 ≠ sampleRaw ∧
      ∃ report report' changed, decode sampleRaw = .ok report ∧ decode (sampleRaw.set 500 0) = .ok report' ∧
        report.compactText = report'.compactText ∧ decode (sampleRaw.set 600 0) = .ok changed ∧
        changed.compactText ≠ report.compactText := by
  have hraw : sampleRaw.length = 1024 := by simp [sampleRaw]
  have hother : (sampleRaw.set 500 0).length = 1024 := by rw [List.length_set, hraw]
  obtain ⟨report, report', hreport, hreport', hequal, -, hset⟩ := document_exact hraw hother
  obtain ⟨changed, hchanged, hseen⟩ := hset 600 (by decide) 0
  refine ⟨hraw, hother, by decide +kernel, report, report', changed, hreport, hreport', hequal.2 ?_, hchanged, ?_⟩
  · intro o _ hfree
    refine (List.getElem?_set_ne ?_).symm
    rintro rfl
    exact hfree (by decide)
  · intro hsame
    exact absurd (hseen.1 hsame) (by decide +kernel)

end TdReport

end Attestation
