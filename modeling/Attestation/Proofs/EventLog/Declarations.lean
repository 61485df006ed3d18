import Attestation.Proofs.EventLog.Lossless

/-!
# Declared digest lengths

* `DigestTable.toList_text` : the text of a table names the algorithms in decimal digits, in ascending order;
* `DigestTable.text_injective` : different tables have different texts;
* `declared_canonical` : the table of a header depends on nothing but the last declaration for each algorithm.
-/

namespace Attestation

namespace DigestTable

/-- A member of the text of a table. -/
def memberText (e : UInt16 × UInt16) : List Char :=
  '"' :: Nat.toDigits 10 e.1.toNat ++ '"' :: ':' :: Nat.toDigits 10 e.2.toNat

theorem toList_text (t : DigestTable) :
    t.text.toList = '{' :: [','].intercalate (t.toList.map memberText) ++ ['}'] := by
  have hmember : ∀ e : UInt16 × UInt16,
      Json.quoted (toString e.1.toNat) ++ ':' :: Json.compact (.ofNat e.2.toNat) = memberText e := by
    intro e
    rw [Json.quoted_of_unescaped (unescaped_toString _), Nat.toString_eq_ofList_toDigits, String.toList_ofList]
    simp [memberText, Datum.ofNat, Json.compact, Json.decimal]
  have hmembers : Json.compactMembers (t.toList.map fun e => (toString e.1.toNat, .ofNat e.2.toNat)) =
      [','].intercalate (t.toList.map memberText) := by
    rw [Json.compactMembers_eq, List.map_map]
    exact congrArg _ (List.map_congr_left fun e _ => hmember e)
  rw [text, Json.compactText, String.toList_ofList, toDatum, Json.compact, hmembers]

example : (DigestTable.ofList [(10, 20), (9, 3), (10, 5)]).text = "\x7b\"9\":3,\"10\":5\x7d" := by decide

theorem read?_text (t : DigestTable) : Json.read? t.text = some t.toDatum := by
  have htidy : Json.Tidy Json.Unescaped 1 t.toDatum := t.tidy_toDatum
  exact Json.read?_compactText htidy (by decide)

theorem text_injective : Function.Injective text := by
  intro t u h
  have hread := read?_text t
  rw [h, read?_text] at hread
  have hdatum := ofDatum?_toDatum t
  rw [← Option.some.inj hread, ofDatum?_toDatum] at hdatum
  exact (Option.some.inj hdatum).symm

end DigestTable

namespace EventLog
open DigestTable (IsLast lastSize)

/-- **Only the last declaration for each algorithm counts.** A header that lists declarations is decoded, on its own
and with a log behind it, to the table that collects them, which is also that of declaring them one after the other.
The table finds the size in the last declaration for an algorithm, lists each declared algorithm once in ascending order,
and is written in this order. So lists with the same last declarations have the same table and the same text, and
different tables have different texts. -/
theorem declared_canonical (declarations : List (UInt16 × UInt16)) :
    (∀ (h : HeaderLayout) (c : Cursor) (rest : Bytes), h.declarations = declarations → h.Sized →
      c.rest = h.bytes ++ rest → ∃ header next, readHeader c = .ok (header, next) ∧
        header.digestSizes = .ofList declarations) ∧
    (∀ (h : HeaderLayout) (events : List EventLayout) (tail : Bytes), h.declarations = declarations → h.Fits →
      (∀ e ∈ events, e.Fits (lastSize declarations)) → Ended tail →
      ∃ log, decode (layOut h events ++ tail) = .ok log ∧ log.header.digestSizes = .ofList declarations) ∧
    declarations.foldl (fun t d => t.insert d.1 d.2) DigestTable.empty = .ofList declarations ∧
    (DigestTable.ofList declarations).Collects declarations ∧
    (DigestTable.ofList declarations).text.toList =
      '{' :: [','].intercalate ((DigestTable.ofList declarations).toList.map DigestTable.memberText) ++ ['}'] ∧
    (∀ others, (∀ algorithm size, IsLast others algorithm size ↔ IsLast declarations algorithm size) →
      DigestTable.ofList others = .ofList declarations ∧
        (DigestTable.ofList others).text = (DigestTable.ofList declarations).text) ∧
    ∀ other : DigestTable, other ≠ .ofList declarations → other.text ≠ (DigestTable.ofList declarations).text := by
  refine ⟨?_, ?_, DigestTable.foldl_insert_empty declarations, DigestTable.collects_ofList declarations,
    DigestTable.toList_text _, fun others h => ?_, fun other hne => DigestTable.text_injective.ne hne⟩
  · rintro h c rest rfl hh hc
    exact ⟨h.read, _, parses_readHeader.of_rest ⟨h, hh, rfl, rfl⟩ hc, rfl⟩
  · rintro h events tail rfl hh hevents htail
    refine ⟨ofLayout h events, ?_, rfl⟩
    rw [decode_append hh hevents, readEvents_ended _ htail]
    simp [Except.map, ofLayout]
  · have hsame := DigestTable.ofList_congr h
    exact ⟨hsame, by rw [hsame]⟩

/-- The repeated declaration for algorithm 11 is as good as its last, wherever that stands. -/
theorem declared_canonical_sample :
    sampleHeader.Fits ∧ (∀ e ∈ sampleEvents, e.Fits (lastSize sampleHeader.declarations)) ∧ Ended (endBytes ++ [0x5A]) ∧
      (∃ log, decode sampleBytes = .ok log ∧ log.header.digestSizes = .ofList [(11, 2), (12, 0)]) ∧
      (DigestTable.ofList sampleHeader.declarations).size = 2 := by
  have hh : sampleHeader.Fits := by decide
  have hevents : ∀ e ∈ sampleEvents, e.Fits (lastSize sampleHeader.declarations) := by decide
  have htail : Ended (endBytes ++ [0x5A]) := .inr (List.prefix_append _ _)
  have hlast : ∀ algorithm size,
      IsLast [(11, 2), (12, 0)] algorithm size ↔ IsLast sampleHeader.declarations algorithm size := by
    intro algorithm size
    rw [← DigestTable.lastSize_eq_some_iff, ← DigestTable.lastSize_eq_some_iff]
    simp only [sampleHeader, DigestTable.lastSize_cons, Option.or_assoc]
    grind
  obtain ⟨-, hdecode, -, hcollects, -, hsame, -⟩ := declared_canonical sampleHeader.declarations
  refine ⟨hh, hevents, htail, ?_, hcollects.size⟩
  rw [(hsame _ hlast).1]
  exact hdecode sampleHeader sampleEvents _ rfl hh hevents htail

end EventLog

end Attestation
