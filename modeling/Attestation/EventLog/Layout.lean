import Attestation.Block
import Attestation.EventLog.Decode

/-!
# The layout of an event log

How the records of a log are written: `HeaderLayout` and `EventLayout` hold what a writer chooses, `bytes` lays it out,
and `read` says what a decoder finds there. `Fits` says which choices can be written.
-/

namespace Attestation.EventLog

def le16 (n : UInt16) : Bytes := Bytes.ofNatLE 2 n.toNat

def le32 (n : UInt32) : Bytes := Bytes.ofNatLE 4 n.toNat

/-! ## The header -/

/-- What a writer chooses for the header. -/
structure HeaderLayout where
  /-- The register plus one. -/
  registerField : UInt32
  eventType : UInt32
  digestCount : UInt32
  /-- What is left of the fixed digest, and the version fields. -/
  fixed : Block fixedFields
  /-- The digest length of each declared algorithm. -/
  declarations : List (UInt16 × UInt16)
  vendor : Bytes

namespace HeaderLayout

/-- The header can be written. -/
def Sized (h : HeaderLayout) : Prop := h.declarations.length < UInt32.size ∧ h.vendor.length < UInt8.size

/-- The header can be written, has the type of a header, and is no end marker. -/
def Fits (h : HeaderLayout) : Prop := h.registerField ≠ endMarker ∧ h.eventType = noAction ∧ h.Sized

instance (h : HeaderLayout) : Decidable h.Fits :=
  inferInstanceAs (Decidable (_ ∧ _ ∧ _ ∧ _))

def bytes (h : HeaderLayout) : Bytes :=
  le32 h.registerField ++ le32 h.eventType ++ le32 h.digestCount ++ h.fixed.bytes ++
    le32 (UInt32.ofNat h.declarations.length) ++ h.declarations.flatMap (fun d => le16 d.1 ++ le16 d.2) ++
    Bytes.ofNatLE 1 h.vendor.length ++ h.vendor

/-- What is read from the bytes of the header. -/
def read (h : HeaderLayout) : Header :=
  { address := 0, length := h.bytes.length, raw := h.bytes, register := h.registerField - 1,
    eventType := h.eventType, digestCount := h.digestCount, digestSizes := .ofList h.declarations }

end HeaderLayout

/-! ## Events -/

/-- What a writer chooses for an event. -/
structure EventLayout where
  /-- The register plus one. -/
  registerField : UInt32
  eventType : UInt32
  /-- The digests with their algorithms. -/
  digests : List (UInt16 × Bytes)
  payload : Bytes

namespace EventLayout

/-- The event can be written, and its digests have the lengths that `sizeOf` gives their algorithms. -/
def Sized (sizeOf : UInt16 → Option UInt16) (e : EventLayout) : Prop :=
  e.digests.length < UInt32.size ∧ e.payload.length < UInt32.size ∧
    ∀ d ∈ e.digests, (sizeOf d.1).map UInt16.toNat = some d.2.length

/-- The event can be written after a header that declares the lengths `sizeOf`, and is no end marker. -/
def Fits (sizeOf : UInt16 → Option UInt16) (e : EventLayout) : Prop :=
  e.registerField ≠ endMarker ∧ e.Sized sizeOf

instance (sizeOf : UInt16 → Option UInt16) (e : EventLayout) : Decidable (e.Fits sizeOf) :=
  inferInstanceAs (Decidable (_ ∧ _ ∧ _ ∧ _))

def bytes (e : EventLayout) : Bytes :=
  le32 e.registerField ++ le32 e.eventType ++ le32 (UInt32.ofNat e.digests.length) ++
    e.digests.flatMap (fun d => le16 d.1 ++ d.2) ++ le32 (UInt32.ofNat e.payload.length) ++ e.payload

/-- What is read from the bytes of the event. -/
def read (e : EventLayout) : Event :=
  { register := e.registerField - 1, eventType := e.eventType, digestCount := UInt32.ofNat e.digests.length,
    digests := e.digests.map (·.2), algorithm := (e.digests.getLast?.map (·.1)).getD 0,
    payloadSize := UInt32.ofNat e.payload.length, payload := e.payload, length := e.bytes.length, raw := e.bytes }

end EventLayout

/-! ## The log -/

def layOut (h : HeaderLayout) (es : List EventLayout) : Bytes := h.bytes ++ es.flatMap EventLayout.bytes

/-- What is read from these bytes. -/
def ofLayout (h : HeaderLayout) (es : List EventLayout) : EventLog :=
  { header := h.read, events := es.map EventLayout.read }

end Attestation.EventLog
