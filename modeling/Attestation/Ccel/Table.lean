import Attestation.Block
import Attestation.Fault

/-!
# The CCEL table

The firmware describes the event log in an ACPI table: a description header of 36 bytes, the type and subtype of the
guest with a reserved word, then the length and the address of the log area as two 64-bit words. `Contents.ofBlock`
cuts these fields off one after the other. Only the signature and the size are checked; what follows the 56 bytes of
the table is kept and ignored.
-/

namespace Attestation.Ccel

/-! ## Fields -/

/-- The header that every ACPI table begins with. -/
structure Description where
  signature : Block 4
  /-- The length that the table declares. -/
  length : Block 4
  revision : Block 1
  checksum : Block 1
  oemId : Block 6
  oemTableId : Block 8
  oemRevision : Block 4
  creatorId : Block 4
  creatorRevision : Block 4
  deriving DecidableEq, Repr

/-- What a CCEL table says. -/
structure Contents where
  description : Description
  guestType : Block 1
  guestSubtype : Block 1
  reserved : Block 2
  areaLength : UInt64
  areaAddress : UInt64
  deriving DecidableEq, Repr

def word64 (b : Block 8) : UInt64 := UInt64.ofNat (Bytes.toNatLE b.bytes)

def Description.ofBlock (b : Block 36) : Description :=
  let (signature, b) := b.split (n := 32) 4
  let (length, b) := b.split (n := 28) 4
  let (revision, b) := b.split (n := 27) 1
  let (checksum, b) := b.split (n := 26) 1
  let (oemId, b) := b.split (n := 20) 6
  let (oemTableId, b) := b.split (n := 12) 8
  let (oemRevision, b) := b.split (n := 8) 4
  let (creatorId, creatorRevision) := b.split (n := 4) 4
  { signature, length, revision, checksum, oemId, oemTableId, oemRevision, creatorId, creatorRevision }

def Contents.size : Nat := 56

def Contents.ofBlock (b : Block Contents.size) : Contents :=
  let (description, b) := Block.split (n := 20) 36 b
  let (guestType, b) := b.split (n := 19) 1
  let (guestSubtype, b) := b.split (n := 18) 1
  let (reserved, b) := b.split (n := 16) 2
  let (areaLength, areaAddress) := b.split (n := 8) 8
  { description := .ofBlock description, guestType, guestSubtype, reserved, areaLength := word64 areaLength,
    areaAddress := word64 areaAddress }

/-- The fields at the start of the bytes, if there are enough of them. -/
def Contents.read? (raw : Bytes) : Option Contents := (Block.ofBytes? size (raw.take size)).map ofBlock

/-! ## Tables -/

/-- A CCEL table. -/
structure Table where
  /-- The table as it was read. -/
  raw : Bytes
  /-- The least length of the log area. -/
  areaLength : UInt64
  /-- The physical address of the log area. -/
  areaAddress : UInt64
  deriving DecidableEq, Repr

def signature : Bytes := Bytes.ofText "CCEL"

def Table.parse (raw : Bytes) : Except Fault Table :=
  if raw.take signature.length ≠ signature then .error (.invalidTable .wrongSignature)
  else if raw.length < minTableLength then .error (.invalidTable (.tooShort raw.length))
  else
    match Contents.read? raw with
    | none => .error (.attributeUnreadable "CCEL ACPI description")
    | some contents => .ok { raw, areaLength := contents.areaLength, areaAddress := contents.areaAddress }

end Attestation.Ccel
