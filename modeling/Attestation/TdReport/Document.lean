import Attestation.Json.Printer
import Attestation.TdReport.Basic

/-!
# Report documents

The document of a report is a JSON table with all its fields but the reserved ones, byte strings in hexadecimal digits
and single bytes as numbers.
-/

namespace Attestation.TdReport

def hexDatum {n : Nat} (b : Block n) : Datum := .text (Text.Hex.encode b.bytes)

def TransportType.toDatum (t : TransportType) : Datum :=
  .table [("type", .ofNat t.kind.toNat), ("sub_type", .ofNat t.subKind.toNat), ("version", .ofNat t.version.toNat)]

def Mac.toDatum (m : Mac) : Datum :=
  .table [
    ("report_type", m.reportType.toDatum),
    ("cpu_svn", hexDatum m.cpuSvn),
    ("tee_tcb_info_hash", hexDatum m.tcbInfoHash),
    ("tee_info_hash", hexDatum m.infoHash),
    ("report_data", hexDatum m.reportData),
    ("mac", hexDatum m.mac)]

def TcbInfo.toDatum (t : TcbInfo) : Datum :=
  .table [
    ("valid", hexDatum t.valid),
    ("tee_tcb_svn", hexDatum t.svn),
    ("mrseam", hexDatum t.mrSeam),
    ("mrsigner_seam", hexDatum t.mrSignerSeam),
    ("attributes", hexDatum t.attributes)]

def Info.toDatum (i : Info) : Datum :=
  .table [
    ("attributes", hexDatum i.attributes),
    ("xfam", hexDatum i.xfam),
    ("mrtd", hexDatum i.mrTd),
    ("mrconfigid", hexDatum i.mrConfigId),
    ("mrowner", hexDatum i.mrOwner),
    ("mrownerconfig", hexDatum i.mrOwnerConfig),
    ("rtmr", hexDatum i.rtmr)]

def toDatum (r : TdReport) : Datum :=
  .table [("report_mac", r.mac.toDatum), ("tee_tcb_info", r.tcbInfo.toDatum), ("tdinfo", r.info.toDatum)]

def compactText (r : TdReport) : String := Json.compactText r.toDatum

def indentedText (r : TdReport) : String := Json.indentedText r.toDatum

end Attestation.TdReport
