import Attestation.Block
import Attestation.Fault

/-!
# TD reports

A trust domain asks its module for a report of 1024 bytes: a part protected by a MAC, what is known of the module, and
the measurements of the domain itself, with reserved bytes in between. `TdReport.ofBlock` cuts the bytes into these
fields one after the other and `TdReport.toBlock` joins them again, so no byte is lost and none is counted twice.
-/

namespace Attestation

namespace TdReport

def size : Nat := 1024

/-! ## The parts -/

/-- What kind of report it is. -/
structure TransportType where
  /-- 0 for SGX, 0x81 for TDX. -/
  kind : UInt8
  subKind : UInt8
  version : UInt8
  reserved : UInt8
  deriving DecidableEq, Repr

/-- The part that the MAC protects. -/
structure Mac where
  reportType : TransportType
  reserved1 : Block 12
  /-- The security version of the processor. -/
  cpuSvn : Block 16
  /-- The hash of `TcbInfo`. -/
  tcbInfoHash : Block 48
  /-- The hash of `Info`. -/
  infoHash : Block 48
  /-- The data that the report was asked for with. -/
  reportData : Block 64
  reserved2 : Block 32
  mac : Block 32
  deriving DecidableEq, Repr

/-- The measurements of the module. -/
structure TcbInfo where
  valid : Block 8
  svn : Block 16
  /-- The measurement of the module. -/
  mrSeam : Block 48
  /-- The measurement of the signer of the module. -/
  mrSignerSeam : Block 48
  attributes : Block 8
  reserved : Block 111
  deriving DecidableEq, Repr

/-- The measurements and the configuration of the domain. -/
structure Info where
  attributes : Block 8
  /-- The mask of the extended features. -/
  xfam : Block 8
  /-- The measurement of the build. -/
  mrTd : Block 48
  mrConfigId : Block 48
  mrOwner : Block 48
  mrOwnerConfig : Block 48
  /-- The four runtime measurement registers. -/
  rtmr : Block 192
  reserved : Block 112
  deriving DecidableEq, Repr

end TdReport

/-- A report of a trust domain. -/
structure TdReport where
  mac : TdReport.Mac
  tcbInfo : TdReport.TcbInfo
  reserved : Block 17
  info : TdReport.Info
  deriving DecidableEq, Repr

namespace TdReport

/-! ## Cutting and joining -/

def TransportType.ofBlock (b : Block 4) : TransportType :=
  let (kind, b) := b.split (n := 3) 1
  let (subKind, b) := b.split (n := 2) 1
  let (version, reserved) := b.split (n := 1) 1
  { kind := kind.byte, subKind := subKind.byte, version := version.byte, reserved := reserved.byte }

def TransportType.toBlock (t : TransportType) : Block 4 :=
  (Block.ofByte t.kind).append
    ((Block.ofByte t.subKind).append ((Block.ofByte t.version).append (Block.ofByte t.reserved)))

def Mac.ofBlock (b : Block 256) : Mac :=
  let (reportType, b) := b.split (n := 252) 4
  let (reserved1, b) := b.split (n := 240) 12
  let (cpuSvn, b) := b.split (n := 224) 16
  let (tcbInfoHash, b) := b.split (n := 176) 48
  let (infoHash, b) := b.split (n := 128) 48
  let (reportData, b) := b.split (n := 64) 64
  let (reserved2, mac) := b.split (n := 32) 32
  { reportType := .ofBlock reportType, reserved1, cpuSvn, tcbInfoHash, infoHash, reportData, reserved2, mac }

def Mac.toBlock (m : Mac) : Block 256 :=
  m.reportType.toBlock.append (m.reserved1.append (m.cpuSvn.append (m.tcbInfoHash.append (m.infoHash.append
    (m.reportData.append (m.reserved2.append m.mac))))))

def TcbInfo.ofBlock (b : Block 239) : TcbInfo :=
  let (valid, b) := b.split (n := 231) 8
  let (svn, b) := b.split (n := 215) 16
  let (mrSeam, b) := b.split (n := 167) 48
  let (mrSignerSeam, b) := b.split (n := 119) 48
  let (attributes, reserved) := b.split (n := 111) 8
  { valid, svn, mrSeam, mrSignerSeam, attributes, reserved }

def TcbInfo.toBlock (t : TcbInfo) : Block 239 :=
  t.valid.append (t.svn.append (t.mrSeam.append (t.mrSignerSeam.append (t.attributes.append t.reserved))))

def Info.ofBlock (b : Block 512) : Info :=
  let (attributes, b) := b.split (n := 504) 8
  let (xfam, b) := b.split (n := 496) 8
  let (mrTd, b) := b.split (n := 448) 48
  let (mrConfigId, b) := b.split (n := 400) 48
  let (mrOwner, b) := b.split (n := 352) 48
  let (mrOwnerConfig, b) := b.split (n := 304) 48
  let (rtmr, reserved) := b.split (n := 112) 192
  { attributes, xfam, mrTd, mrConfigId, mrOwner, mrOwnerConfig, rtmr, reserved }

def Info.toBlock (i : Info) : Block 512 :=
  i.attributes.append (i.xfam.append (i.mrTd.append (i.mrConfigId.append (i.mrOwner.append (i.mrOwnerConfig.append
    (i.rtmr.append i.reserved))))))

def ofBlock (b : Block size) : TdReport :=
  let (mac, b) := Block.split (n := 768) 256 b
  let (tcbInfo, b) := b.split (n := 529) 239
  let (reserved, info) := b.split (n := 512) 17
  { mac := .ofBlock mac, tcbInfo := .ofBlock tcbInfo, reserved, info := .ofBlock info }

def toBlock (r : TdReport) : Block size :=
  r.mac.toBlock.append (r.tcbInfo.toBlock.append (r.reserved.append r.info.toBlock))

/-- The report that the bytes hold; nothing but their number is checked. -/
def decode (raw : Bytes) : Except Fault TdReport :=
  match Block.ofBytes? size raw with
  | some b => .ok (ofBlock b)
  | none => .error (.malformedReport raw.length)

end TdReport

end Attestation
