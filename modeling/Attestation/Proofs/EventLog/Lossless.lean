import Attestation.Proofs.EventLog.Reading
import Attestation.Proofs.Json.Compact

/-!
# Documents lose nothing

* `FitsWords` : the lengths in a log fit into 64 bits, as in every log that was decoded from so few bytes;
* `tidy_toDatum` : the value of its document names each member once, and no string in it has to be escaped;
* `Ordered` : the members stand in the order of their declaration;
* `Piece` : what is the same in every style, and the digests of an event;
* `document_lossless` : a document is read back as its log, whole.
-/

namespace Attestation
open Json (Plain Unescaped Tidy)

/-! ## Parts of a document -/

theorem DigestStyle.unescaped_render (style : DigestStyle) (digest : Bytes) : Unescaped (style.render digest) := by
  cases style with
  | hex => exact unescaped_hex digest
  | byteArray =>
    refine Json.unescaped_ofList fun c hc => ?_
    simp only [characters, List.cons_append, List.mem_cons, List.mem_append, List.not_mem_nil, or_false] at hc
    rcases hc with rfl | hc | rfl
    · decide
    · rcases eq_blank_or_isDigit hc with rfl | hdigit
      · decide
      · exact Json.plain_of_isDigit hdigit
    · decide

/-- Ascending ids have different names. -/
theorem DigestTable.tidy_toDatum {levels : Nat} (t : DigestTable) : Tidy Unescaped (levels + 1) t.toDatum := by
  have hids : (t.toList.map fun e => toString e.1.toNat).Nodup := by
    refine List.Pairwise.map _ (fun a b hlt heq => ?_) t.ascending
    exact Nat.ne_of_lt (UInt16.lt_iff_toNat_lt.1 hlt) (Nat.repr_inj.1 heq)
  have hnames : (t.toList.map fun e => (toString e.1.toNat, Datum.ofNat e.2.toNat)).map Prod.fst =
      t.toList.map fun e => toString e.1.toNat := by
    rw [List.map_map]
    rfl
  refine .table (by rwa [hnames]) ?_ ?_
  · intro m hm
    obtain ⟨e, -, rfl⟩ := List.mem_map.1 hm
    exact unescaped_toString _
  · intro m hm
    obtain ⟨e, -, rfl⟩ := List.mem_map.1 hm
    exact tidy_word16 e.2

namespace EventLog

/-! ## Tidy documents -/

/-- The lengths of the records fit into 64 bits. -/
def FitsWords (log : EventLog) : Prop :=
  log.header.length < UInt64.size ∧ ∀ e ∈ log.events, e.length < UInt64.size

instance (log : EventLog) : Decidable log.FitsWords :=
  inferInstanceAs (Decidable (_ ∧ _))

/-- So they do in every log that was decoded from so few bytes. -/
theorem fitsWords_of_decode {bs : Bytes} {log : EventLog} (hd : decode bs = .ok log) (hbs : bs.length < UInt64.size) :
    log.FitsWords := by
  obtain ⟨h, es, tail, -, -, -, rfl, rfl⟩ := exists_layout_of_decode hd
  rw [layOut, List.length_append, List.length_append] at hbs
  refine ⟨Nat.lt_of_le_of_lt ?_ hbs, ?_⟩
  · show h.bytes.length ≤ _
    omega
  · intro e he
    obtain ⟨l, hl, rfl⟩ := List.mem_map.1 he
    have hle : l.bytes.length ≤ (es.flatMap EventLayout.bytes).length := by
      rw [List.flatMap_def]
      exact (List.sublist_flatten_of_mem (List.mem_map_of_mem hl)).length_le
    show l.bytes.length < _
    omega

theorem FitsWords.withAddress {log : EventLog} (h : log.FitsWords) (address : UInt64) :
    (log.withAddress address).FitsWords := h

/-- And in every window of such a log. -/
theorem fitsWords_of_window {log w : EventLog} {start count : Nat} (hlog : log.FitsWords)
    (hw : log.window start count = .ok w) : w.FitsWords := by
  obtain ⟨hheader, hevents, -⟩ := window_eq_ok hw
  refine ⟨hheader ▸ hlog.1, fun e he => hlog.2 e ?_⟩
  rw [hevents] at he
  exact List.mem_of_mem_drop (List.mem_of_mem_take he)

def documentNames : List String := ["Header", "EventLogs"]

def headerNames : List String :=
  ["Address", "Length", "HeaderData", "Rtmr", "Etype", "DigestCount", "DigestSizes"]

def eventNames : List String :=
  ["Rtmr", "Etype", "DigestCount", "Digests", "Data", "Event", "Length", "EventSize", "AlgorithmId"]

/-- The names of the members of each kind of table but the digest table. -/
def memberNames : List (List String) := [documentNames, headerNames, eventNames]

theorem nodup_unescaped : ∀ names ∈ memberNames, names.Nodup ∧ ∀ name ∈ names, Unescaped name := by
  simp [memberNames, documentNames, headerNames, eventNames, Unescaped, Plain]

theorem Header.tidy_toDatum {h : Header} (hh : h.length < UInt64.size) : Tidy Unescaped 2 h.toDatum := by
  refine tidy_table (nodup_unescaped headerNames (by simp [memberNames])) ?_
  simp only [List.forall_mem_cons]
  exact ⟨tidy_word64 _, tidy_ofNat hh, tidy_base64 _, tidy_word32 _, tidy_word32 _, tidy_word32 _,
    DigestTable.tidy_toDatum _, List.forall_mem_nil _⟩

theorem Event.tidy_toDatum (style : DigestStyle) {e : Event} (he : e.length < UInt64.size) :
    Tidy Unescaped 2 (e.toDatum style) := by
  have hdigests : Tidy Unescaped 1 (.list (e.digests.map fun d => .text (style.render d))) := by
    refine .list fun v hv => ?_
    obtain ⟨d, -, rfl⟩ := List.mem_map.1 hv
    exact .text (style.unescaped_render d)
  refine tidy_table (nodup_unescaped eventNames (by simp [memberNames])) ?_
  simp only [List.forall_mem_cons]
  exact ⟨tidy_word32 _, tidy_word32 _, tidy_word32 _, hdigests, tidy_base64 _, tidy_base64 _, tidy_ofNat he,
    tidy_word32 _, tidy_word16 _, List.forall_mem_nil _⟩

/-- **The value of a document is tidy**: list and table of the document, table and digests of an event. -/
theorem tidy_toDatum (style : DigestStyle) {log : EventLog} (hlog : log.FitsWords) :
    Tidy Unescaped 4 (log.toDatum style) := by
  have hevents : Tidy Unescaped 3 (.list (log.events.map (Event.toDatum style))) := by
    refine .list fun v hv => ?_
    obtain ⟨e, he, rfl⟩ := List.mem_map.1 hv
    exact Event.tidy_toDatum style (hlog.2 e he)
  refine tidy_table (nodup_unescaped documentNames (by simp [memberNames])) ?_
  simp only [List.forall_mem_cons]
  exact ⟨(Header.tidy_toDatum hlog.1).succ, hevents, List.forall_mem_nil _⟩

/-- The members stand in the order of their declaration, and the digest lengths in the order of their algorithms. -/
structure Ordered (log : EventLog) (document : Datum) : Prop where
  names : document.names = documentNames
  header : ∃ header, document.member? "Header" = some header ∧ header.names = headerNames ∧
    ∃ sizes, header.member? "DigestSizes" = some sizes ∧
      sizes.names = log.header.digestSizes.toList.map fun e => toString e.1.toNat
  events : ∃ events, document.items? "EventLogs" = some events ∧ events.length = log.events.length ∧
    ∀ event ∈ events, event.names = eventNames

theorem ordered_toDatum (style : DigestStyle) (log : EventLog) : Ordered log (log.toDatum style) where
  names := rfl
  header := by
    refine ⟨log.header.toDatum, member?_header style log, rfl, log.header.digestSizes.toDatum, rfl, ?_⟩
    rw [DigestTable.toDatum, Datum.names, List.map_map]
    rfl
  events := by
    refine ⟨_, items?_eventLogs style log, List.length_map _, fun event hevent => ?_⟩
    obtain ⟨e, -, rfl⟩ := List.mem_map.1 hevent
    rfl

/-! ## The two styles -/

/-- A piece of the text of a document. -/
inductive Piece where
  /-- Characters that are the same in every style. -/
  | fixed (cs : List Char)
  /-- The member of an event with its digests. -/
  | digests (ds : List Bytes)

namespace Piece

def digests? : Piece → Option (List Bytes)
  | fixed _ => none
  | digests ds => some ds

def write (style : DigestStyle) : Piece → List Char
  | fixed cs => cs
  | digests ds => Json.compactMembers [("Digests", .list (ds.map fun d => .text (style.render d)))]

end Piece

/-- The pieces of an event: what stands before its digests, the digests, and what stands behind them. -/
def Event.pieces (e : Event) : List Piece :=
  [.fixed ('{' :: Json.compactMembers [("Rtmr", .ofNat e.register.toNat), ("Etype", .ofNat e.eventType.toNat),
      ("DigestCount", .ofNat e.digestCount.toNat)] ++ [',']),
    .digests e.digests,
    .fixed (',' :: Json.compactMembers [("Data", .text (Text.Base64.encode e.raw)),
      ("Event", .text (Text.Base64.encode e.payload)), ("Length", .ofNat e.length),
      ("EventSize", .ofNat e.payloadSize.toNat), ("AlgorithmId", .ofNat e.algorithm.toNat)] ++ ['}'])]

/-- The pieces of several events, with commas between them. -/
def eventPieces : List Event → List Piece
  | [] => []
  | [e] => e.pieces
  | e :: f :: es => e.pieces ++ .fixed [','] :: eventPieces (f :: es)

def pieces (log : EventLog) : List Piece :=
  .fixed ('{' :: Json.compactMembers [("Header", log.header.toDatum)] ++ ',' :: Json.quoted "EventLogs" ++ [':', '[']) ::
    eventPieces log.events ++ [.fixed [']', '}']]

theorem filterMap_eventPieces (es : List Event) : (eventPieces es).filterMap Piece.digests? = es.map Event.digests := by
  fun_induction eventPieces es with
  | case1 => rfl
  | case2 e => rfl
  | case3 e f es ih =>
    rw [List.filterMap_append, List.filterMap_cons, ih]
    rfl

theorem compact_event (style : DigestStyle) (e : Event) :
    Json.compact (e.toDatum style) = e.pieces.flatMap (Piece.write style) := by
  simp [Event.toDatum, Event.pieces, Piece.write, Json.compact, Json.compactMembers]

theorem compactItems_events (style : DigestStyle) (es : List Event) :
    Json.compactItems (es.map (Event.toDatum style)) = (eventPieces es).flatMap (Piece.write style) := by
  fun_induction eventPieces es with
  | case1 => rfl
  | case2 e => exact compact_event style e
  | case3 e f es ih =>
    rw [List.map_cons, List.map_cons, Json.compactItems, ← List.map_cons, ih, List.flatMap_append, List.flatMap_cons,
      compact_event]
    rfl

/-- The text of a document is made of its pieces, each written in the style. -/
theorem toList_document (style : DigestStyle) (log : EventLog) :
    (log.document style).toList = log.pieces.flatMap (Piece.write style) := by
  have hevents := compactItems_events style log.events
  rw [document, Json.compactText, String.toList_ofList]
  simp [toDatum, pieces, Piece.write, Json.compact, Json.compactMembers, hevents]

theorem filterMap_pieces (log : EventLog) : log.pieces.filterMap Piece.digests? = log.events.map Event.digests := by
  have hevents : (eventPieces log.events ++ [Piece.fixed [']', '}']]).filterMap Piece.digests? =
      log.events.map Event.digests := by
    rw [List.filterMap_append, filterMap_eventPieces]
    exact List.append_nil _
  exact hevents

/-! ## Documents -/

theorem read?_document (style : DigestStyle) {log : EventLog} (hlog : log.FitsWords) :
    Json.read? (log.document style) = some (log.toDatum style) :=
  Json.read?_compactText (tidy_toDatum style hlog) (by decide)

theorem ofDocument?_document (style : DigestStyle) {log : EventLog} (hlog : log.FitsWords) :
    ofDocument? style (log.document style) = some log := by
  rw [ofDocument?, read?_document style hlog]
  exact ofDatum?_toDatum style log

/-- **A document loses nothing.** In either style it is read back as its log, whole, so that equal documents are of one
log. It is JSON with its members in the order of their declaration, none of them twice, and without a single escape. In
the two styles it consists of the same pieces but for the digests of its events, which are read back in either. -/
theorem document_lossless {log : EventLog} (hlog : log.FitsWords) :
    (∀ style, ofDocument? style (log.document style) = some log) ∧
    (∀ style (other : EventLog), other.FitsWords → other.document style = log.document style → other = log) ∧
    (∀ style, ∃ value, log.document style = Json.compactText value ∧ Json.read? (log.document style) = some value ∧
      Tidy Unescaped 4 value ∧ Ordered log value ∧ '\\' ∉ (log.document style).toList) ∧
    (∃ pieces : List Piece, pieces.filterMap Piece.digests? = log.events.map Event.digests ∧
      ∀ style, (log.document style).toList = pieces.flatMap (Piece.write style)) ∧
    ∀ (style : DigestStyle) (digest : Bytes), style.read? (style.render digest) = some digest := by
  refine ⟨fun style => ofDocument?_document style hlog, ?_, ?_, ?_, DigestStyle.read?_render⟩
  · intro style other hother heq
    have hread := ofDocument?_document style hother
    rw [heq, ofDocument?_document style hlog] at hread
    exact (Option.some.inj hread).symm
  · intro style
    have htidy := tidy_toDatum style hlog
    refine ⟨log.toDatum style, rfl, read?_document style hlog, htidy, ordered_toDatum style log, ?_⟩
    rw [document, Json.compactText, String.toList_ofList]
    exact Json.backslash_not_mem_compact htidy
  · exact ⟨log.pieces, filterMap_pieces log, fun style => toList_document style log⟩

theorem document_lossless_sample :
    sampleLog.FitsWords ∧ (∀ style, ofDocument? style (sampleLog.document style) = some sampleLog) ∧
      ∀ style, '\\' ∉ (sampleLog.document style).toList := by
  have hlog : sampleLog.FitsWords := fitsWords_of_decode decode_sampleBytes (by decide +kernel)
  obtain ⟨hread, -, hjson, -, -⟩ := document_lossless hlog
  refine ⟨hlog, hread, fun style => ?_⟩
  obtain ⟨_, -, -, -, -, hescape⟩ := hjson style
  exact hescape

end EventLog

end Attestation
