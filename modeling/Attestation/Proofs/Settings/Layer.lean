import Attestation.Proofs.Json.Grammar
import Attestation.Settings.Layer

/-!
# What a layer leaves behind

* `named ms name` : the values of the members with the name, in whatever case, in their order;
* `get?_layAll` : under a name stands what these values, one after the other, make of what stood there;
* `IsIdentifier` : a name that is a key path on its own;
* `layFile_eq_layAll` : a file all of whose names are such is laid over a value as a table is.
-/

namespace Attestation

namespace Members

theorem get?_cons (m : String × Datum) (ms : Members) (name : String) :
    get? (m :: ms) name = if m.1 = name then some m.2 else ms.get? name := by
  by_cases h : m.1 = name <;> simp [get?, h]

theorem get?_put (ms : Members) (name other : String) (value : Datum) :
    (ms.put name value).get? other = if name = other then some value else ms.get? other := by
  induction ms with
  | nil => exact get?_cons (name, value) [] other
  | cons m ms ih =>
    by_cases hm : m.1 = name
    · rw [put, if_pos hm, get?_cons, get?_cons, hm]
      by_cases h : name = other <;> simp [h]
    · rw [put, if_neg hm, get?_cons, get?_cons, ih]
      by_cases h : name = other
      · subst h
        simp [hm]
      · rw [if_neg h, if_neg h]

end Members

namespace Settings

/-! ## Tables -/

/-- What a value makes of the one that it is laid over. -/
def laidOver (old : Option Datum) : Datum → Datum
  | .table incoming => layAll (old.getD (.table [])) incoming
  | v => v

/-- The values of the members with the name, whatever the case of theirs. -/
def named (ms : Members) (name : String) : List Datum := (ms.filter fun m => fold m.1 = name).map Prod.snd

theorem layMember_eq (ms : Members) (name : String) (v : Datum) :
    layMember ms name v = ms.put (fold name) (laidOver (ms.get? (fold name)) v) := by
  cases v <;> simp [layMember, laidOver]

theorem named_cons (m : String × Datum) (ms : Members) (name : String) :
    named (m :: ms) name = if fold m.1 = name then m.2 :: named ms name else named ms name := by
  by_cases h : fold m.1 = name <;> simp [named, h]

theorem named_eq_nil {ms : Members} {name : String} (h : ∀ m ∈ ms, fold m.1 ≠ name) : named ms name = [] := by
  rw [named, List.map_eq_nil_iff, List.filter_eq_nil_iff]
  simpa using h

theorem named_of_nodup {ms : Members} (hfold : ∀ m ∈ ms, fold m.1 = m.1) (hnodup : (ms.map Prod.fst).Nodup)
    {m : String × Datum} (hm : m ∈ ms) : named ms m.1 = [m.2] := by
  induction ms with
  | nil => cases hm
  | cons x ms ih =>
    obtain ⟨hx, hms⟩ := List.nodup_cons.1 hnodup
    obtain ⟨hfoldx, hfoldms⟩ := List.forall_mem_cons.1 hfold
    have hne (y : String × Datum) (hy : y ∈ ms) : fold y.1 ≠ x.1 := by
      rw [hfoldms y hy]
      exact fun heq => hx (heq ▸ List.mem_map_of_mem hy)
    rcases List.mem_cons.1 hm with rfl | hm
    · rw [named_cons, if_pos hfoldx, named_eq_nil hne]
    · rw [named_cons, if_neg, ih hfoldms hms hm]
      rw [hfoldx, ← hfoldms m hm]
      exact (hne m hm).symm

/-- **Each name of a layer is laid over its own member**, and nothing else is. -/
theorem get?_layAll (target : Datum) (ms : Members) (name : String) :
    (membersOf (layAll target ms)).get? name =
      (named ms name).foldl (fun old v => some (laidOver old v)) ((membersOf target).get? name) := by
  induction ms generalizing target with
  | nil => rfl
  | cons m ms ih =>
    rw [layAll, ih, membersOf, layMember_eq, named_cons, Members.get?_put]
    by_cases h : fold m.1 = name
    · rw [if_pos h, if_pos h, List.foldl_cons, h]
    · rw [if_neg h, if_neg h]

/-- A table stays one. -/
theorem layAll_table (acc ms : Members) : layAll (.table acc) ms = .table (membersOf (layAll (.table acc) ms)) := by
  induction ms generalizing acc with
  | nil => rfl
  | cons m ms ih =>
    rw [layAll]
    exact ih _

/-! ## Files -/

/-- The name leads no further down; it may hold blanks. -/
def IsIdentifier (name : String) : Prop := name ≠ "" ∧ ∀ c ∈ name.toList, isNameChar c = true

instance (name : String) : Decidable (IsIdentifier name) :=
  inferInstanceAs (Decidable (_ ∧ _))

theorem stepsOf_of_isIdentifier {name : String} (h : IsIdentifier name) : stepsOf name = [.member name] := by
  have htake : name.toList.takeWhile isNameChar = name.toList := List.takeWhile_eq_self_iff.2 h.2
  have hread : readName name.toList = some (name, []) := by
    simp [readName, htake, h.1]
  simp [stepsOf, readPath, hread, readSteps]

theorem layFile_eq_layAll (target : Datum) {root : Members} (h : ∀ m ∈ root, IsIdentifier m.1) :
    layFile target root = layAll target root := by
  induction root generalizing target with
  | nil => rfl
  | cons m root ih =>
    have hsteps := stepsOf_of_isIdentifier (h m List.mem_cons_self)
    have hrest := ih (.table (layMember (membersOf target) m.1 m.2)) fun x hx => h x (List.mem_cons_of_mem m hx)
    rw [layFile] at hrest
    rw [layFile, List.foldl_cons, hsteps, layAt, hrest, layAll]

end Settings

end Attestation
