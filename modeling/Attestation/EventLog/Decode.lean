import Attestation.EventLog.Basic
import Attestation.EventLog.Cursor

/-!
# Decoding an event log

All numbers are little-endian, and registers are written plus one. The header has the layout of the oldest logs:
register, type, digest count, then 44 bytes of a fixed digest and of version fields, the declared algorithms and the
vendor information. The events after it each hold register, type, the digests with their algorithms, and a payload.
A log ends with its bytes or before an event whose register field is `endMarker`.

A log that does not begin with a header is refused: without one the digest lengths of its events are unknown. Further
records of type `noAction` are events like all others.
-/

namespace Attestation.EventLog

/-- The number of bytes between the digest count of the header and its algorithms: what is left of the fixed digest
with the event size, then signature, platform class, version and word size. -/
def fixedFields : Nat := 20 + 24

/-- The fields that header and events begin with. -/
structure Preamble where
  register : UInt32
  eventType : UInt32
  digestCount : UInt32

/-- Reads the fields that header and events begin with. -/
def readPreamble : Reader Preamble := do
  let field ← word32
  let eventType ← word32
  let digestCount ← word32
  return { register := field - 1, eventType, digestCount }

/-! ## The header -/

/-- One declared algorithm: its id, then the length of its digests. -/
def readDeclaration : Reader (UInt16 × UInt16) := do
  let algorithm ← word16
  let size ← word16
  return (algorithm, size)

def readDeclarations : Reader (List (UInt16 × UInt16)) := do
  let count ← word32
  times count.toNat readDeclaration

/-- Skips the vendor information, which is preceded by its length. -/
def skipVendorInfo : Reader Unit := do
  let length ← byte
  let _ ← take length.toNat

def readHeaderFields : Reader (Preamble × DigestTable) := do
  let p ← readPreamble
  let _ ← take fixedFields
  let sizes ← readDeclarations
  skipVendorInfo
  return (p, .ofList sizes)

def readHeader : Reader Header := do
  let ((p, digestSizes), raw) ← withRaw readHeaderFields
  return { address := 0, length := raw.length, raw, register := p.register, eventType := p.eventType,
           digestCount := p.digestCount, digestSizes }

/-! ## Events -/

/-- One digest with its algorithm: the id, then as many bytes as the header declares for it. -/
def readDigest (sizes : DigestTable) : Reader (UInt16 × Bytes) := do
  let algorithm ← word16
  match sizes.get? algorithm with
  | none => throw (.unknownAlgorithm algorithm)
  | some size => return (algorithm, ← take size.toNat)

/-- The fields of an event: preamble, digests, payload size and payload. -/
def readEventFields (sizes : DigestTable) : Reader (Preamble × List (UInt16 × Bytes) × UInt32 × Bytes) := do
  let p ← readPreamble
  let digests ← times p.digestCount.toNat (readDigest sizes)
  let payloadSize ← word32
  let payload ← take payloadSize.toNat
  return (p, digests, payloadSize, payload)

def readEvent (sizes : DigestTable) : Reader Event := do
  let ((p, digests, payloadSize, payload), raw) ← withRaw (readEventFields sizes)
  return { register := p.register, eventType := p.eventType, digestCount := p.digestCount,
           digests := digests.map (·.2), algorithm := (digests.getLast?.map (·.1)).getD 0,
           payloadSize, payload, length := raw.length, raw }

/-- The least number of bytes of an event: register, type, digest count and payload size. -/
def minEvent : Nat := 16

theorem consumes_readPreamble : Consumes 12 readPreamble :=
  consumes_word32.bind fun _ => consumes_word32.bind fun _ => consumes_word32.bind fun _ => consumes_pure _

theorem consumes_readDigest (sizes : DigestTable) : Consumes 2 (readDigest sizes) :=
  consumes_word16.bind (n := 0) fun algorithm => by
    cases sizes.get? algorithm with
    | none => exact consumes_throw 0 _
    | some size => exact ((consumes_take _).bind fun _ => consumes_pure _).mono (Nat.zero_le _)

theorem consumes_readEvent (sizes : DigestTable) : Consumes minEvent (readEvent sizes) := by
  have fields : Consumes minEvent (readEventFields sizes) :=
    (consumes_readPreamble.bind (n := 4) fun p =>
      (((consumes_readDigest sizes).times _).bind (n := 4) fun _ =>
        (consumes_word32.bind (n := 0) fun _ =>
          ((consumes_take _).bind fun _ => consumes_pure _).mono (Nat.zero_le _))).mono (by omega))
  exact fields.withRaw.bind fun _ => consumes_pure _

/-! ## The log -/

/-- Reads events up to the end of the log, with those read before in reverse. -/
def readEventsOnto (sizes : DigestTable) (acc : List Event) (c : Cursor) : Except Fault (List Event) :=
  if c.rest.isEmpty then .ok acc.reverse
  else
    match word32 c with
    | .error e => .error e
    | .ok (field, _) =>
      if field = endMarker then .ok acc.reverse
      else
        match h : readEvent sizes c with
        | .error e => .error e
        | .ok (e, c') =>
          have : c'.rest.length < c.rest.length := by
            obtain ⟨k, hk, hkl, rfl⟩ := consumes_readEvent sizes _ _ _ h
            simp only [minEvent] at hk
            simp only [Cursor.advance, List.length_drop]
            omega
          readEventsOnto sizes (e :: acc) c'
termination_by c.rest.length

/-- The events at the cursor, up to the end of the log. -/
def readEvents (sizes : DigestTable) (c : Cursor) : Except Fault (List Event) := readEventsOnto sizes [] c

/-- Refuses a log that does not begin with a record of type `noAction`. -/
def checkStart (c : Cursor) : Except Fault Unit := do
  if c.rest.isEmpty then throw .missingHeader
  let (field, next) ← word32 c
  if field = endMarker then throw .missingHeader
  let (eventType, _) ← word32 next
  if eventType ≠ noAction then throw .missingHeader

def decode (bs : Bytes) : Except Fault EventLog := do
  let c := Cursor.start bs
  checkStart c
  let (header, next) ← readHeader c
  return { header, events := ← readEvents header.digestSizes next }

end Attestation.EventLog
