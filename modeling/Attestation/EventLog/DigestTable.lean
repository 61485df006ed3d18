/-!
# Digest tables

The header of an event log declares the length of the digests of each hash algorithm that the log uses. A
`DigestTable` keeps one length per algorithm id, in ascending order of the ids, so two tables that look up alike are
equal. `DigestTable.ofList` collects declarations; of several for one algorithm the last counts.
-/

namespace Attestation

/-- The digest length of each declared algorithm. -/
structure DigestTable where
  /-- Algorithm ids with their digest lengths. -/
  toList : List (UInt16 × UInt16)
  /-- Each id is listed once, in ascending order. -/
  ascending : toList.Pairwise fun a b => a.1 < b.1
  deriving DecidableEq, Repr

namespace DigestTable

/-- The entries with one for `algorithm` added in order, unless there is one. -/
def insertEntry (algorithm size : UInt16) : List (UInt16 × UInt16) → List (UInt16 × UInt16)
  | [] => [(algorithm, size)]
  | e :: es =>
    if algorithm < e.1 then (algorithm, size) :: e :: es
    else if algorithm = e.1 then e :: es
    else e :: insertEntry algorithm size es

theorem mem_insertEntry {algorithm size : UInt16} {es : List (UInt16 × UInt16)} {e : UInt16 × UInt16}
    (h : e ∈ insertEntry algorithm size es) : e = (algorithm, size) ∨ e ∈ es := by
  induction es with
  | nil => simpa [insertEntry] using h
  | cons x es ih =>
    simp only [insertEntry] at h
    split at h
    · simpa using h
    · split at h
      · exact .inr h
      · rcases List.mem_cons.1 h with h | h
        · exact .inr (h ▸ List.mem_cons_self)
        · exact (ih h).imp_right (List.mem_cons_of_mem _)

theorem pairwise_insertEntry {algorithm size : UInt16} {es : List (UInt16 × UInt16)}
    (h : es.Pairwise fun a b => a.1 < b.1) : (insertEntry algorithm size es).Pairwise fun a b => a.1 < b.1 := by
  induction es with
  | nil => simp [insertEntry]
  | cons x es ih =>
    obtain ⟨hx, hes⟩ := List.pairwise_cons.1 h
    simp only [insertEntry]
    split
    · next hlt =>
      refine List.pairwise_cons.2 ⟨fun y hy => ?_, h⟩
      rcases List.mem_cons.1 hy with rfl | hy
      · exact hlt
      · exact UInt16.lt_trans hlt (hx y hy)
    · next hnlt =>
      split
      · exact h
      · next hne =>
        refine List.pairwise_cons.2 ⟨fun y hy => ?_, ih hes⟩
        rcases mem_insertEntry hy with rfl | hy
        · exact UInt16.lt_of_le_of_ne (UInt16.not_lt.1 hnlt) (Ne.symm hne)
        · exact hx y hy

def empty : DigestTable := ⟨[], .nil⟩

/-- The table with a declaration added, unless its algorithm is declared already. -/
def insertNew (t : DigestTable) (algorithm size : UInt16) : DigestTable :=
  ⟨insertEntry algorithm size t.toList, pairwise_insertEntry t.ascending⟩

/-- The table of a list of declarations, which are added from the last to the first. -/
def ofList (declarations : List (UInt16 × UInt16)) : DigestTable :=
  declarations.foldr (fun d t => t.insertNew d.1 d.2) empty

def get? (t : DigestTable) (algorithm : UInt16) : Option UInt16 :=
  (t.toList.find? fun e => e.1 = algorithm).map (·.2)

def size (t : DigestTable) : Nat := t.toList.length

def isEmpty (t : DigestTable) : Bool := t.toList.isEmpty

end DigestTable

end Attestation
