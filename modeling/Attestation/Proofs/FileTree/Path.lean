import Mathlib
import Attestation.FileTree.Path

/-!
# Plain paths

A plain path is absolute and has no `.` and no `..` in it, so its names are the place that it names.

* `names_ofNames` : names that are written to a path are read back from it;
* `Plain.ancestors_eq`, `isChain_ancestors` : the directories above a plain path, each with one name less than the one
  before it.
-/

namespace Attestation.Path

/-- The path is absolute, and none of its segments is `.` or `..`. -/
def Plain (path : String) : Prop := isAbsolute path = true ∧ ∀ s ∈ segments path, s ≠ "." ∧ s ≠ ".."

instance : DecidablePred Plain := fun _ => inferInstanceAs (Decidable (_ ∧ _))

/-! ## Names -/

theorem not_mem_of_mem_splitOn {c : Char} {l w : List Char} (h : w ∈ l.splitOn c) : c ∉ w := by
  induction l generalizing w with
  | nil =>
    rw [List.splitOn_nil, List.mem_singleton] at h
    simp [h]
  | cons x rest ih =>
    rw [List.splitOn_cons_eq_if_modifyHead] at h
    split at h
    · rcases List.mem_cons.1 h with rfl | hrest
      · simp
      · exact ih hrest
    · next hx =>
      cases hsplit : rest.splitOn c with
      | nil => exact absurd hsplit (List.splitOn_ne_nil _ _)
      | cons first others =>
        rw [hsplit] at h ih
        rcases List.mem_cons.1 h with rfl | hother
        · have hfirst := ih List.mem_cons_self
          have hne : c ≠ x := fun hc => hx (by simp [hc])
          simp [hne, hfirst]
        · exact ih (List.mem_cons_of_mem _ hother)

/-- What the names of a path are like. -/
theorem mem_names {path name : String} (h : name ∈ names path) : name ≠ "" ∧ name ≠ "." ∧ '/' ∉ name.toList := by
  obtain ⟨hsegment, hname⟩ := List.mem_filter.1 h
  obtain ⟨cs, hcs, rfl⟩ := List.mem_map.1 hsegment
  have hne : String.ofList cs ≠ "" ∧ String.ofList cs ≠ "." := by simpa using hname
  refine ⟨hne.1, hne.2, ?_⟩
  rw [String.toList_ofList]
  exact not_mem_of_mem_splitOn hcs

theorem segments_ofNames {ns : List String} (hns : ns ≠ []) (h : ∀ n ∈ ns, '/' ∉ n.toList) :
    segments (ofNames true ns) = "" :: ns := by
  have hcut : (['/'].intercalate (ns.map String.toList)).splitOn '/' = ns.map String.toList := by
    refine List.splitOn_intercalate '/' ?_ (by simpa using hns)
    simpa using h
  have htext : (ofNames true ns).toList = [] ++ '/' :: ['/'].intercalate (ns.map String.toList) := by
    simp [ofNames, String.toList_append, String.toList_intercalate]
  rw [segments, htext, List.splitOn_append_cons_self, hcut]
  simp [List.map_map, Function.comp_def]

/-- Names that are written to a path are read back from it. -/
theorem names_ofNames {ns : List String} (h : ∀ n ∈ ns, n ≠ "" ∧ n ≠ "." ∧ '/' ∉ n.toList) :
    names (ofNames true ns) = ns := by
  by_cases hns : ns = []
  · subst hns
    decide +kernel
  · rw [names, segments_ofNames hns fun n hn => (h n hn).2.2, List.filter_cons_of_neg (by simp), List.filter_eq_self]
    intro n hn
    simpa using ⟨(h n hn).1, (h n hn).2.1⟩

/-! ## Plain paths -/

theorem Plain.not_mem_names {path : String} (h : Plain path) : ".." ∉ names path :=
  fun hname => (h.2 _ (List.mem_filter.1 hname).1).2 rfl

/-- The names of a plain path are its segments without the empty ones. -/
theorem Plain.names_eq {path : String} (h : Plain path) : names path = (segments path).filter (· ≠ "") := by
  refine List.filter_congr fun s hs => ?_
  simp [(h.2 s hs).1]

theorem foldl_descend {names : List String} (h : ".." ∉ names) (place : List String) :
    names.foldl descend place = place ++ names := by
  induction names generalizing place with
  | nil => rw [List.foldl_nil, List.append_nil]
  | cons name rest ih =>
    simp only [List.mem_cons, not_or] at h
    obtain ⟨hname, hrest⟩ := h
    rw [List.foldl_cons, ih hrest, descend, if_neg (Ne.symm hname), List.append_assoc, List.singleton_append]

/-- A plain path names the place that is written in it. -/
theorem Plain.place_eq {path : String} (h : Plain path) : place path = names path := by
  rw [place, foldl_descend h.not_mem_names, List.nil_append]

theorem plain_ofNames {ns : List String} (h : ∀ n ∈ ns, n ≠ "" ∧ n ≠ "." ∧ '/' ∉ n.toList) (hdots : ".." ∉ ns) :
    Plain (ofNames true ns) := by
  by_cases hns : ns = []
  · subst hns
    decide +kernel
  · have habsolute : (ofNames true ns).toList.head? = some '/' := by
      simp [ofNames, String.toList_append]
    refine ⟨by simpa [isAbsolute] using habsolute, fun s hs => ?_⟩
    rw [segments_ofNames hns fun n hn => (h n hn).2.2] at hs
    rcases List.mem_cons.1 hs with rfl | hs
    · decide
    · exact ⟨(h s hs).2.1, fun hc => hdots (hc ▸ hs)⟩

/-! ## The directories above -/

theorem mem_take_names {path name : String} {n : Nat} (h : name ∈ (names path).take n) :
    name ≠ "" ∧ name ≠ "." ∧ '/' ∉ name.toList :=
  mem_names (List.mem_of_mem_take h)

/-- The directories with the first names of a path, from those with `n - 1` names down to the root. -/
def above (path : String) (n : Nat) : List String :=
  (List.range n).reverse.map fun i => ofNames true ((names path).take i)

theorem above_succ (path : String) (n : Nat) :
    above path (n + 1) = ofNames true ((names path).take n) :: above path n := by
  rw [above, List.range_succ, List.reverse_append, List.reverse_singleton, List.singleton_append, List.map_cons]
  rfl

theorem ancestors_eq {path : String} (h : isAbsolute path = true) :
    ancestors path = path :: above path (names path).length := by
  simp only [ancestors, h, if_true]
  rfl

/-- Each directory has the names of the one before it, without the last. -/
theorem isChain_above (path : String) {n : Nat} (hn : n ≤ (names path).length) {below : String}
    (hbelow : names below = (names path).take n) :
    (below :: above path n).IsChain fun p q => names q = (names p).dropLast := by
  induction n generalizing below with
  | zero => exact List.IsChain.singleton _
  | succ n ih =>
    have hnames : names (ofNames true ((names path).take n)) = (names path).take n :=
      names_ofNames fun _ => mem_take_names
    rw [above_succ, List.isChain_cons_cons]
    refine ⟨?_, ih (by omega) hnames⟩
    rw [hnames, hbelow, List.dropLast_eq_take, List.length_take, Nat.min_eq_left hn, Nat.add_sub_cancel, List.take_take,
      Nat.min_eq_left (Nat.le_succ n)]

theorem isChain_ancestors {path : String} (h : isAbsolute path = true) :
    (ancestors path).IsChain fun p q => names q = (names p).dropLast := by
  rw [ancestors_eq h]
  exact isChain_above path le_rfl (by rw [List.take_length])

theorem Plain.mem_ancestors {path directory : String} (h : Plain path) (hmem : directory ∈ ancestors path) :
    Plain directory ∧ names directory <+: names path := by
  rw [ancestors_eq h.1, List.mem_cons] at hmem
  rcases hmem with rfl | hmem
  · exact ⟨h, List.prefix_refl _⟩
  · obtain ⟨i, -, rfl⟩ := List.mem_map.1 hmem
    have hnames : names (ofNames true ((names path).take i)) = (names path).take i :=
      names_ofNames fun _ => mem_take_names
    refine ⟨plain_ofNames (fun _ => mem_take_names) fun hdots => h.not_mem_names (List.mem_of_mem_take hdots), ?_⟩
    rw [hnames]
    exact List.take_prefix _ _

end Attestation.Path
