import Attestation.Proofs.EventLog.Parses

/-!
# The grammar of records

A reader of records accepts the layouts that can be written, and no others: `parses_readHeader` for headers and
`parses_readEvent` for events, from the languages of the fields.
-/

namespace Attestation.EventLog

/-! ## The fields that header and events begin with -/

/-- The bytes of the fields that header and events begin with. -/
def Preamble.bytes (p : Preamble) : Bytes := le32 (p.register + 1) ++ le32 p.eventType ++ le32 p.digestCount

theorem parses_readPreamble : Parses readPreamble (fun p bs => bs = p.bytes) := by
  have fields := parses_word32.bind fun field => parses_word32.bind fun eventType =>
    parses_word32.map fun digestCount => ({ register := field - 1, eventType, digestCount } : Preamble)
  refine fields.congr fun p bs => ⟨?_, ?_⟩
  · intro hp
    obtain ⟨field, _, _, rfl, ⟨eventType, _, _, rfl, ⟨digestCount, rfl, rfl⟩, rfl⟩, rfl⟩ := hp
    simp [Preamble.bytes]
  · rintro rfl
    refine ⟨p.register + 1, _, _, rfl, ⟨p.eventType, _, _, rfl, ⟨p.digestCount, ?_, rfl⟩, rfl⟩, ?_⟩
    · simp
    · simp [Preamble.bytes]

/-! ## The header -/

theorem parses_readDeclaration : Parses readDeclaration (fun d p => True ∧ p = le16 d.1 ++ le16 d.2) := by
  have fields := parses_word16.bind fun algorithm => parses_word16.map fun size => (algorithm, size)
  refine fields.congr fun d p => ⟨?_, ?_⟩
  · intro hp
    obtain ⟨algorithm, _, _, rfl, ⟨size, rfl, rfl⟩, rfl⟩ := hp
    exact ⟨trivial, rfl⟩
  · intro hp
    obtain ⟨-, rfl⟩ := hp
    exact ⟨d.1, _, _, rfl, ⟨d.2, rfl, rfl⟩, rfl⟩

theorem parses_readDeclarations : Parses readDeclarations (fun ds p => ds.length < UInt32.size ∧
      p = le32 (UInt32.ofNat ds.length) ++ ds.flatMap fun d => le16 d.1 ++ le16 d.2) := by
  have fields := parses_word32.bind fun count => parses_readDeclaration.times count.toNat
  refine fields.congr fun ds p => ⟨?_, ?_⟩
  · intro hp
    obtain ⟨count, _, _, rfl, ⟨⟨hcount, -⟩, rfl⟩, rfl⟩ := hp
    rw [hcount, UInt32.ofNat_toNat]
    exact ⟨count.toNat_lt, rfl⟩
  · intro hp
    obtain ⟨hlt, rfl⟩ := hp
    refine ⟨UInt32.ofNat ds.length, _, _, rfl, ⟨⟨?_, fun _ _ => trivial⟩, rfl⟩, rfl⟩
    exact (UInt32.toNat_ofNat_of_lt' hlt).symm

theorem parses_skipVendorInfo : Parses skipVendorInfo (fun _ p => ∃ vendor : Bytes, vendor.length < UInt8.size ∧
    p = Bytes.ofNatLE 1 vendor.length ++ vendor) := by
  have fields := parses_byte.bind fun length => (parses_take length.toNat).map fun _ => ()
  refine fields.congr fun _ p => ⟨?_, ?_⟩
  · intro hp
    obtain ⟨length, _, vendor, rfl, ⟨_, -, hlen, rfl⟩, rfl⟩ := hp
    refine ⟨vendor, ?_, ?_⟩
    · rw [hlen]
      exact length.toNat_lt
    · rw [hlen]
  · intro hp
    obtain ⟨vendor, hlt, rfl⟩ := hp
    have hlength : (UInt8.ofNat vendor.length).toNat = vendor.length := UInt8.toNat_ofNat_of_lt' hlt
    exact ⟨UInt8.ofNat vendor.length, _, _, rfl, ⟨vendor, rfl, hlength.symm, rfl⟩, by rw [hlength]⟩

theorem parses_readHeaderFields : Parses readHeaderFields (fun x p => ∃ h : HeaderLayout, h.Sized ∧ p = h.bytes ∧
    x = ({ register := h.registerField - 1, eventType := h.eventType, digestCount := h.digestCount },
      DigestTable.ofList h.declarations)) := by
  have fields := parses_readPreamble.bind fun p => (parses_take fixedFields).bind fun _ =>
    parses_readDeclarations.bind fun ds => parses_skipVendorInfo.map fun _ => (p, DigestTable.ofList ds)
  refine fields.congr fun x bs => ⟨?_, ?_⟩
  · intro hp
    obtain ⟨p, _, _, rfl, ⟨_, fixed, _, ⟨hfixed, rfl⟩,
      ⟨ds, _, _, ⟨hds, rfl⟩, ⟨_, rfl, vendor, hvendor, rfl⟩, rfl⟩, rfl⟩, rfl⟩ := hp
    refine ⟨⟨p.register + 1, p.eventType, p.digestCount, ⟨fixed, hfixed⟩, ds, vendor⟩, ⟨hds, hvendor⟩, ?_, ?_⟩
    · simp [Preamble.bytes, HeaderLayout.bytes]
    · simp
  · intro hp
    obtain ⟨h, ⟨hds, hvendor⟩, rfl, rfl⟩ := hp
    refine ⟨_, _, _, rfl, ⟨h.fixed.bytes, _, _, ⟨h.fixed.length_eq, rfl⟩,
      ⟨h.declarations, _, _, ⟨hds, rfl⟩, ⟨(), rfl, h.vendor, hvendor, rfl⟩, rfl⟩, rfl⟩, ?_⟩
    simp [Preamble.bytes, HeaderLayout.bytes]

/-- **The language of headers.** -/
theorem parses_readHeader :
    Parses readHeader (fun x p => ∃ h : HeaderLayout, h.Sized ∧ p = h.bytes ∧ x = h.read) := by
  have record := parses_readHeaderFields.withRaw.map fun x =>
    ({ address := 0, length := x.2.length, raw := x.2, register := x.1.1.register, eventType := x.1.1.eventType,
       digestCount := x.1.1.digestCount, digestSizes := x.1.2 } : Header)
  refine record.congr fun x p => ⟨?_, ?_⟩
  · intro hp
    obtain ⟨⟨_, _⟩, rfl, ⟨h, hh, rfl, rfl⟩, rfl⟩ := hp
    exact ⟨h, hh, rfl, rfl⟩
  · intro hp
    obtain ⟨h, hh, rfl, rfl⟩ := hp
    exact ⟨(_, h.bytes), rfl, ⟨h, hh, rfl, rfl⟩, rfl⟩

/-! ## Events -/

theorem parses_readDigest (sizes : DigestTable) : Parses (readDigest sizes) (fun d p =>
    (sizes.get? d.1).map UInt16.toNat = some d.2.length ∧ p = le16 d.1 ++ d.2) := by
  refine Parses.congr (Parses.bind parses_word16 (V := fun algorithm d p =>
    d = (algorithm, p) ∧ (sizes.get? algorithm).map UInt16.toNat = some p.length) fun algorithm => ?_)
    fun d p => ⟨?_, ?_⟩
  · cases sizes.get? algorithm with
    | none => exact (parses_throw _).congr (by simp)
    | some size =>
      refine ((parses_take size.toNat).map fun bs => (algorithm, bs)).congr fun d p => ⟨?_, ?_⟩
      · intro hp
        obtain ⟨_, rfl, hlen, rfl⟩ := hp
        exact ⟨rfl, by simp [hlen]⟩
      · intro hp
        obtain ⟨rfl, hlen⟩ := hp
        exact ⟨p, rfl, by simpa using hlen.symm, rfl⟩
  · intro hp
    obtain ⟨algorithm, _, _, rfl, ⟨rfl, hlen⟩, rfl⟩ := hp
    exact ⟨hlen, rfl⟩
  · intro hp
    obtain ⟨hlen, rfl⟩ := hp
    exact ⟨d.1, _, _, rfl, ⟨rfl, hlen⟩, rfl⟩

theorem parses_readEventFields (sizes : DigestTable) : Parses (readEventFields sizes) (fun x p =>
    ∃ e : EventLayout, e.Sized sizes.get? ∧ p = e.bytes ∧ x =
      ({ register := e.registerField - 1, eventType := e.eventType, digestCount := UInt32.ofNat e.digests.length },
        e.digests, UInt32.ofNat e.payload.length, e.payload)) := by
  have fields := parses_readPreamble.bind fun p =>
    ((parses_readDigest sizes).times p.digestCount.toNat).bind fun digests =>
      parses_word32.bind fun payloadSize =>
        (parses_take payloadSize.toNat).map fun payload => (p, digests, payloadSize, payload)
  refine fields.congr fun x bs => ⟨?_, ?_⟩
  · intro hp
    obtain ⟨⟨register, eventType, digestCount⟩, _, _, rfl, ⟨digests, _, _, ⟨⟨hcount, hdigests⟩, rfl⟩,
      ⟨payloadSize, _, payload, rfl, ⟨_, rfl, hpayload, rfl⟩, rfl⟩, rfl⟩, rfl⟩ := hp
    have hcount : digestCount = UInt32.ofNat digests.length := by rw [hcount, UInt32.ofNat_toNat]
    have hsize : payloadSize = UInt32.ofNat payload.length := by rw [hpayload, UInt32.ofNat_toNat]
    refine ⟨⟨register + 1, eventType, digests, payload⟩, ⟨?_, ?_, hdigests⟩, ?_, ?_⟩
    · rw [‹digests.length = _›]
      exact digestCount.toNat_lt
    · rw [hpayload]
      exact payloadSize.toNat_lt
    · simp [Preamble.bytes, EventLayout.bytes, ← hcount, ← hsize]
    · simp [← hcount, ← hsize]
  · intro hp
    obtain ⟨e, ⟨hcount, hpayload, hdigests⟩, rfl, rfl⟩ := hp
    refine ⟨_, _, _, rfl, ⟨e.digests, _, _, ⟨⟨?_, hdigests⟩, rfl⟩,
      ⟨_, _, _, rfl, ⟨e.payload, rfl, ?_, rfl⟩, rfl⟩, rfl⟩, ?_⟩
    · exact (UInt32.toNat_ofNat_of_lt' hcount).symm
    · exact (UInt32.toNat_ofNat_of_lt' hpayload).symm
    · simp [Preamble.bytes, EventLayout.bytes]

/-- **The language of events** after a header that declares the lengths `sizes`. -/
theorem parses_readEvent (sizes : DigestTable) : Parses (readEvent sizes)
    (fun x p => ∃ e : EventLayout, e.Sized sizes.get? ∧ p = e.bytes ∧ x = e.read) := by
  have record := (parses_readEventFields sizes).withRaw.map fun x =>
    ({ register := x.1.1.register, eventType := x.1.1.eventType, digestCount := x.1.1.digestCount,
       digests := x.1.2.1.map Prod.snd, algorithm := (x.1.2.1.getLast?.map Prod.fst).getD 0, payloadSize := x.1.2.2.1,
       payload := x.1.2.2.2, length := x.2.length, raw := x.2 } : Event)
  refine record.congr fun x p => ⟨?_, ?_⟩
  · intro hp
    obtain ⟨⟨_, _⟩, rfl, ⟨e, he, rfl, rfl⟩, rfl⟩ := hp
    exact ⟨e, he, rfl, rfl⟩
  · intro hp
    obtain ⟨e, he, rfl, rfl⟩ := hp
    exact ⟨(_, e.bytes), rfl, ⟨e, he, rfl, rfl⟩, rfl⟩

end Attestation.EventLog
