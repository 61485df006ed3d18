import Mathlib
import Attestation.EventLog.DigestTable

/-!
# What digest tables look up

* `lastSize ds a` : the size in the last of the declarations `ds` for the algorithm `a`;
* `size_ofList_le` : a table has no more entries than there were declarations;
* `ofList_toList` : a table is the table of its entries;
* `get?_insertNew` : a new declaration is found, unless its algorithm is declared already;
* `get?_ofList` : the table of the declarations `ds` looks up `lastSize ds`;
* `IsLast ds a s` : the last of the declarations `ds` for `a` gives the size `s`, and `lastSize_eq_some_iff` says so;
* `ext_get?` : tables that look up alike are equal;
* `Collects t ds` : the table `t` says what the declarations `ds` say, as `collects_ofList` proves of `ofList ds`;
* `insert` : a declaration in the place of an earlier one, and `foldl_insert_empty` collects a list with it.
-/

namespace Attestation.DigestTable

/-- The size in the last of the declarations for the algorithm. -/
def lastSize (declarations : List (UInt16 × UInt16)) (algorithm : UInt16) : Option UInt16 :=
  declarations.reverse.lookup algorithm

/-! ## Entries in ascending order -/

theorem find?_eq_none_of_lt {a b : UInt16} {es : List (UInt16 × UInt16)} (hes : ∀ e ∈ es, a < e.1) (hb : b ≤ a) :
    es.find? (fun e => e.1 = b) = none := by
  refine List.find?_eq_none.2 fun e he => ?_
  have hlt : b < e.1 := UInt16.lt_of_le_of_lt hb (hes e he)
  simpa using Ne.symm (UInt16.ne_of_lt hlt)

theorem find?_insertEntry (a s b : UInt16) {es : List (UInt16 × UInt16)}
    (hes : es.Pairwise fun x y => x.1 < y.1) :
    (insertEntry a s es).find? (fun e => e.1 = b) =
      (es.find? (fun e => e.1 = b)).or (if a = b then some (a, s) else none) := by
  induction es with
  | nil => by_cases hab : a = b <;> simp [insertEntry, hab]
  | cons x es ih =>
    obtain ⟨hx, hes⟩ := List.pairwise_cons.1 hes
    unfold insertEntry
    split
    · next hlt =>
      by_cases hab : a = b
      · have hnone : (x :: es).find? (fun e => e.1 = b) = none := by
          refine find?_eq_none_of_lt (a := a) (fun e he => ?_) (UInt16.le_of_eq hab.symm)
          rcases List.mem_cons.1 he with rfl | he
          · exact hlt
          · exact UInt16.lt_trans hlt (hx e he)
        rw [hnone]
        simp [hab]
      · rw [List.find?_cons_of_neg (by simpa using hab), if_neg hab, Option.or_none]
    · split
      · next heq =>
        by_cases hab : a = b
        · rw [List.find?_cons_of_pos (by simp [← heq, hab])]
          rfl
        · rw [if_neg hab, Option.or_none]
      · by_cases hxb : x.1 = b
        · rw [List.find?_cons_of_pos (by simpa using hxb), List.find?_cons_of_pos (by simpa using hxb)]
          rfl
        · rw [List.find?_cons_of_neg (by simpa using hxb), List.find?_cons_of_neg (by simpa using hxb), ih hes]

theorem insertEntry_of_lt {a : UInt16} (s : UInt16) {es : List (UInt16 × UInt16)} (hes : ∀ e ∈ es, a < e.1) :
    insertEntry a s es = (a, s) :: es := by
  cases es with
  | nil => rfl
  | cons e es => rw [insertEntry, if_pos (hes e List.mem_cons_self)]

/-- Declarations in ascending order are kept as they are. -/
theorem toList_ofList_of_pairwise {ds : List (UInt16 × UInt16)} (h : ds.Pairwise fun x y => x.1 < y.1) :
    (ofList ds).toList = ds := by
  induction ds with
  | nil => rfl
  | cons d ds ih =>
    obtain ⟨hd, hds⟩ := List.pairwise_cons.1 h
    have hcons : (ofList (d :: ds)).toList = insertEntry d.1 d.2 (ofList ds).toList := rfl
    rw [hcons, ih hds, insertEntry_of_lt d.2 hd]

/-- Tables with the same entries are equal. -/
theorem ext_toList {t u : DigestTable} (h : t.toList = u.toList) : t = u := by
  cases t
  cases u
  cases h
  rfl

/-- A table is the table of its entries. -/
theorem ofList_toList (t : DigestTable) : ofList t.toList = t :=
  ext_toList (toList_ofList_of_pairwise t.ascending)

theorem length_insertEntry_le (a s : UInt16) (es : List (UInt16 × UInt16)) :
    (insertEntry a s es).length ≤ es.length + 1 := by
  induction es with
  | nil => simp [insertEntry]
  | cons e es ih =>
    unfold insertEntry
    split
    · simp
    · split
      · simp
      · simpa using ih

/-- There is at most one entry for each declaration. -/
theorem size_ofList_le (ds : List (UInt16 × UInt16)) : (ofList ds).size ≤ ds.length := by
  induction ds with
  | nil => exact Nat.le_refl 0
  | cons d ds ih => exact Nat.le_trans (length_insertEntry_le d.1 d.2 _) (Nat.succ_le_succ ih)

/-! ## Look-ups -/

theorem get?_insertNew (t : DigestTable) (a s b : UInt16) :
    (t.insertNew a s).get? b = (t.get? b).or (if a = b then some s else none) := by
  unfold get? insertNew
  rw [find?_insertEntry a s b t.ascending]
  cases t.toList.find? (fun e => e.1 = b) with
  | some e => rfl
  | none => by_cases hab : a = b <;> simp [hab]

theorem lastSize_cons (d : UInt16 × UInt16) (ds : List (UInt16 × UInt16)) (b : UInt16) :
    lastSize (d :: ds) b = (lastSize ds b).or (if d.1 = b then some d.2 else none) := by
  unfold lastSize
  rw [List.reverse_cons, List.lookup_append]
  obtain ⟨c, s⟩ := d
  rw [List.lookup_singleton]
  congr 1
  by_cases hb : c = b
  · subst hb
    simp
  · simp [hb, Ne.symm hb]

/-- **The last declaration counts.** -/
theorem get?_ofList (ds : List (UInt16 × UInt16)) : (ofList ds).get? = lastSize ds := by
  funext b
  induction ds with
  | nil => rfl
  | cons d ds ih =>
    have hcons : ofList (d :: ds) = (ofList ds).insertNew d.1 d.2 := rfl
    rw [hcons, get?_insertNew, lastSize_cons, ih]

theorem lastSize_eq_none_iff {ds : List (UInt16 × UInt16)} {a : UInt16} :
    lastSize ds a = none ↔ a ∉ ds.map Prod.fst := by
  induction ds with
  | nil => simp [lastSize]
  | cons d ds ih =>
    rw [lastSize_cons, Option.or_eq_none_iff, ih, List.map_cons, List.mem_cons, not_or, and_comm]
    simp [eq_comm]

/-- The last of the declarations for the algorithm gives the size. -/
def IsLast (declarations : List (UInt16 × UInt16)) (algorithm size : UInt16) : Prop :=
  ∃ before after, declarations = before ++ (algorithm, size) :: after ∧ algorithm ∉ after.map Prod.fst

theorem lastSize_eq_some_iff {ds : List (UInt16 × UInt16)} {a s : UInt16} : lastSize ds a = some s ↔ IsLast ds a s := by
  constructor
  · intro h
    induction ds with
    | nil => cases h
    | cons d ds ih =>
      rw [lastSize_cons] at h
      cases hlast : lastSize ds a with
      | some size =>
        rw [hlast, Option.some_or] at h
        obtain ⟨before, after, hds, hafter⟩ := ih (hlast.trans h)
        exact ⟨d :: before, after, by rw [hds, List.cons_append], hafter⟩
      | none =>
        rw [hlast, Option.none_or] at h
        split at h
        · next hd => exact ⟨[], ds, by rw [← hd, ← Option.some.inj h]; rfl, lastSize_eq_none_iff.1 hlast⟩
        · cases h
  · rintro ⟨before, after, rfl, hafter⟩
    induction before with
    | nil => rw [List.nil_append, lastSize_cons, lastSize_eq_none_iff.2 hafter, Option.none_or, if_pos rfl]
    | cons d before ih => rw [List.cons_append, lastSize_cons, ih, Option.some_or]

/-! ## Entries -/

theorem nodup_ids (t : DigestTable) : (t.toList.map Prod.fst).Nodup :=
  t.ascending.map Prod.fst fun _ _ hlt => UInt16.ne_of_lt hlt

theorem get?_eq_some_iff {t : DigestTable} {a s : UInt16} : t.get? a = some s ↔ (a, s) ∈ t.toList := by
  rw [get?, Option.map_eq_some_iff]
  constructor
  · rintro ⟨e, hfind, rfl⟩
    have hid : e.1 = a := by simpa using List.find?_some hfind
    rw [← hid]
    exact List.mem_of_find?_eq_some hfind
  · intro hmem
    obtain ⟨e, hfind⟩ : ∃ e, t.toList.find? (fun e => e.1 = a) = some e :=
      Option.isSome_iff_exists.1 (List.find?_isSome.2 ⟨(a, s), hmem, by simp⟩)
    have hid : e.1 = a := by simpa using List.find?_some hfind
    have heq : e = (a, s) := List.inj_on_of_nodup_map t.nodup_ids (List.mem_of_find?_eq_some hfind) hmem hid
    exact ⟨e, hfind, by rw [heq]⟩

theorem get?_eq_none_iff {t : DigestTable} {a : UInt16} : t.get? a = none ↔ a ∉ t.toList.map Prod.fst := by
  rw [Option.eq_none_iff_forall_ne_some, List.mem_map]
  constructor
  · rintro h ⟨e, he, rfl⟩
    exact h e.2 (get?_eq_some_iff.2 he)
  · intro h s hs
    exact h ⟨(a, s), get?_eq_some_iff.1 hs, rfl⟩

/-- **Tables that look up alike are equal.** -/
theorem ext_get? {t u : DigestTable} (h : t.get? = u.get?) : t = u := by
  have hmem : ∀ e, e ∈ t.toList ↔ e ∈ u.toList := by
    intro e
    rw [← get?_eq_some_iff, h, get?_eq_some_iff]
  have hperm : t.toList.Perm u.toList :=
    (List.perm_ext_iff_of_nodup t.nodup_ids.of_map u.nodup_ids.of_map).2 hmem
  apply ext_toList
  apply hperm.eq_of_pairwise _ t.ascending u.ascending
  intro a b _ _ hab hba
  exact absurd (UInt16.lt_trans hab hba) (UInt16.lt_irrefl _)

/-- There is one entry for each declared algorithm. -/
theorem size_ofList (ds : List (UInt16 × UInt16)) : (ofList ds).size = (ds.map Prod.fst).dedup.length := by
  have hmem : ∀ a, a ∈ (ofList ds).toList.map Prod.fst ↔ a ∈ (ds.map Prod.fst).dedup := by
    intro a
    rw [List.mem_dedup, ← not_iff_not, ← get?_eq_none_iff, get?_ofList, lastSize_eq_none_iff]
  have hperm := (List.perm_ext_iff_of_nodup (ofList ds).nodup_ids (List.nodup_dedup _)).2 hmem
  rw [← hperm.length_eq, List.length_map]
  rfl

/-- What the declarations say, each algorithm once and in ascending order. -/
structure Collects (t : DigestTable) (declarations : List (UInt16 × UInt16)) : Prop where
  finds : ∀ algorithm size, t.get? algorithm = some size ↔ IsLast declarations algorithm size
  misses : ∀ algorithm, t.get? algorithm = none ↔ algorithm ∉ declarations.map Prod.fst
  lists : ∀ algorithm size, (algorithm, size) ∈ t.toList ↔ IsLast declarations algorithm size
  ascending : (t.toList.map Prod.fst).Pairwise (· < ·)
  size : t.size = (declarations.map Prod.fst).dedup.length

theorem collects_ofList (ds : List (UInt16 × UInt16)) : (ofList ds).Collects ds where
  finds a s := by rw [get?_ofList, lastSize_eq_some_iff]
  misses a := by rw [get?_ofList, lastSize_eq_none_iff]
  lists a s := by rw [← get?_eq_some_iff, get?_ofList, lastSize_eq_some_iff]
  ascending := List.pairwise_map.2 (ofList ds).ascending
  size := size_ofList ds

/-- The order and the repetitions of declarations make no difference. -/
theorem ofList_congr {ds es : List (UInt16 × UInt16)} (h : ∀ a s, IsLast ds a s ↔ IsLast es a s) :
    ofList ds = ofList es := by
  apply ext_get?
  funext a
  apply Option.ext
  intro s
  rw [(collects_ofList ds).finds, (collects_ofList es).finds, h]

/-! ## Declaring one after the other -/

/-- The table without an entry for the algorithm. -/
def erase (t : DigestTable) (algorithm : UInt16) : DigestTable :=
  ⟨t.toList.filter fun e => e.1 ≠ algorithm, t.ascending.filter _⟩

/-- The table with a declaration, in the place of an earlier one for its algorithm. -/
def insert (t : DigestTable) (algorithm size : UInt16) : DigestTable := (t.erase algorithm).insertNew algorithm size

theorem get?_erase (t : DigestTable) (a b : UInt16) : (t.erase a).get? b = if a = b then none else t.get? b := by
  ext s
  rw [get?_eq_some_iff, erase, List.mem_filter, ← get?_eq_some_iff]
  split
  · next hab => simp [hab]
  · next hab => simp [Ne.symm hab]

theorem get?_insert (t : DigestTable) (a s b : UInt16) :
    (t.insert a s).get? b = if a = b then some s else t.get? b := by
  rw [insert, get?_insertNew, get?_erase]
  split
  · rw [Option.none_or]
  · rw [Option.or_none]

theorem get?_foldl_insert (ds : List (UInt16 × UInt16)) (t : DigestTable) (b : UInt16) :
    (ds.foldl (fun t d => t.insert d.1 d.2) t).get? b = (lastSize ds b).or (t.get? b) := by
  induction ds generalizing t with
  | nil => rfl
  | cons d ds ih =>
    rw [List.foldl_cons, ih, get?_insert, lastSize_cons, Option.or_assoc]
    congr 1
    split
    · rw [Option.some_or]
    · rw [Option.none_or]

/-- **The table of a list of declarations** is that of declaring them one after the other, from the first to the last. -/
theorem foldl_insert_empty (ds : List (UInt16 × UInt16)) :
    ds.foldl (fun t d => t.insert d.1 d.2) empty = ofList ds := by
  apply ext_get?
  funext b
  rw [get?_foldl_insert, get?_ofList]
  exact Option.or_none

end Attestation.DigestTable
