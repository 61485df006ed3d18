import Attestation.Proofs.FileTree.Grow
import Attestation.Proofs.FileTree.Path

/-!
# Trees that look alike from a path

Two trees look alike along a place if they have the same at the place itself and the same files above it; directories
above it may be missing in one of them. A plain path does not tell such trees apart.

* `GrownBy.alike`, `Free.alike` : directories and files that are made elsewhere;
* `Alike.resolve_iff`, `Alike.exists?_eq` : it leads to its place in both or in none;
* `Alike.read_of_exists` : what exists reads the same;
* `Alike.read_eq` : what does not exist is missed with the same error, unless a name is too long in a directory that
  one of the trees lacks.
-/

namespace Attestation.FileTree

/-! ## Walks without dots -/

section Walks
variable {t u : FileTree}

/-- A walk without dots leads to the names in it. -/
theorem walk_names {here p : Place} {segments : List String} (hplain : ∀ s ∈ segments, s ≠ "." ∧ s ≠ "..")
    (h : t.walk here segments = .ok p) : p = here ++ segments.filter (· ≠ "") := by
  have hnames : (segments.filter fun s => s ≠ "" ∧ s ≠ ".") = segments.filter (· ≠ "") :=
    List.filter_congr fun s hs => by simp [(hplain s hs).1]
  rw [walk_place h, hnames]
  exact Path.foldl_descend (fun hmem => (hplain _ (List.mem_filter.1 hmem).1).2 rfl) here

theorem get?_directory_above {p q : Place} (hp : t.get? p = u.get? p) (hsome : (u.get? p).isSome) (hqp : q <+: p)
    (hq : u.get? q = some .directory) : t.get? q = some .directory := by
  by_cases hne : q = p
  · rw [hne, hp, ← hne, hq]
  · exact get?_above hqp hne (by rw [hp]; exact hsome)

/-- A walk without dots depends on where it ends only. -/
theorem walk_congr {here p : Place} {segments : List String} (hplain : ∀ s ∈ segments, s ≠ "." ∧ s ≠ "..")
    (hhere : (u.get? here).isSome) (hp : t.get? p = u.get? p) (h : u.walk here segments = .ok p) :
    t.walk here segments = .ok p := by
  induction segments generalizing here with
  | nil => exact h
  | cons s rest ih =>
    have hend := walk_isSome hhere h
    have hdots := (hplain s List.mem_cons_self).2
    have hrest : ∀ x ∈ rest, x ≠ "." ∧ x ≠ ".." := fun x hx => hplain x (List.mem_cons_of_mem _ hx)
    have hprefix : here <+: p := ⟨_, (walk_names hplain h).symm⟩
    obtain ⟨next, hstep, hwalk⟩ := walk_cons_eq_ok.1 h
    have hnext : next <+: p := ⟨_, (walk_names hrest hwalk).symm⟩
    obtain ⟨hdir, ⟨hstay, rfl⟩ | ⟨hup, -⟩ | ⟨hname, hlong, hsome, rfl⟩⟩ := step_cases hstep
    · have hdir' := get?_directory_above hp hend hprefix hdir
      exact walk_cons_eq_ok.2 ⟨next, step_stay hdir' hstay, ih hrest hhere hwalk⟩
    · exact absurd hup hdots
    · have hdir' := get?_directory_above hp hend hprefix hdir
      have hsome' : (t.get? (here ++ [s])).isSome := by
        by_cases hne : here ++ [s] = p
        · rw [hne, hp]
          exact hend
        · rw [get?_above hnext hne (by rw [hp]; exact hend)]
          rfl
      refine walk_cons_eq_ok.2 ⟨_, ?_, ih hrest hsome hwalk⟩
      rw [step_name hdir' hname, child_eq hlong, if_pos hsome']

theorem walk_of_file {here : Place} {segments : List String} {e : OsError} (hfile : t.get? here ≠ some .directory)
    (h : t.walk here segments = .error e) : e = .notADirectory := by
  cases segments with
  | nil => cases h
  | cons s rest =>
    rw [walk_cons, step_file hfile] at h
    cases h
    rfl

/-- No file stands on the way to a directory, nor on the way to what could stand in it but does not. -/
theorem not_file_above {here q : Place} {name : String} {rest : List String} (hdir : t.get? here = some .directory)
    (hnone : t.get? (here ++ [name]) = none) (hq : q <+: here ++ [name] ++ rest) (content : Bytes) :
    t.get? q ≠ some (.file content) := by
  intro hfile
  have hsome : (t.get? q).isSome := by rw [hfile]; rfl
  have hne : q ≠ here ++ [name] := by
    rintro rfl
    rw [hfile] at hnone
    cases hnone
  rcases List.prefix_or_prefix_of_prefix hq (List.prefix_append _ rest) with habove | hbelow
  · rcases List.prefix_concat_iff.1 habove with heq | habove
    · exact hne heq
    · by_cases heq : q = here
      · rw [heq, hdir] at hfile
        cases hfile
      · rw [get?_above habove heq (by rw [hdir]; rfl)] at hfile
        cases hfile
  · rw [get?_above hbelow (Ne.symm hne) hsome] at hnone
    cases hnone

/-- On the way down from a directory there is a name that is too long, in a directory. -/
def MeetsLongName (t : FileTree) (here : Place) (names : List String) : Prop :=
  ∃ above name below, names = above ++ name :: below ∧ maxName < name.utf8ByteSize ∧
    t.get? (here ++ above) = some .directory

/-- On the way to a place there is a file. -/
def MeetsFile (t : FileTree) (place : Place) : Prop := ∃ q content, q <+: place ∧ t.get? q = some (.file content)

theorem meetsLongName_cons {here : Place} {name : String} {names : List String} (hshort : name.utf8ByteSize ≤ maxName) :
    t.MeetsLongName here (name :: names) ↔ t.MeetsLongName (here ++ [name]) names := by
  constructor
  · rintro ⟨above, long, below, hnames, hlong, hdir⟩
    cases above with
    | nil =>
      obtain ⟨rfl, -⟩ := List.cons.inj hnames
      omega
    | cons x above =>
      obtain ⟨rfl, htail⟩ := List.cons.inj hnames
      exact ⟨above, long, below, htail, hlong, by rwa [List.append_assoc]⟩
  · rintro ⟨above, long, below, rfl, hlong, hdir⟩
    exact ⟨name :: above, long, below, rfl, hlong, by rwa [List.append_assoc] at hdir⟩

theorem not_meetsLongName {here : Place} {names : List String} (h : t.get? here ≠ some .directory) :
    ¬ t.MeetsLongName here names := by
  rintro ⟨above, long, below, -, -, hdir⟩
  by_cases heq : here = here ++ above
  · rw [← heq] at hdir
    exact h hdir
  · exact h (get?_above (List.prefix_append _ _) heq (by rw [hdir]; rfl))

/-- A walk without dots fails at a name that is too long, at a file that is no directory, or for want of a name. -/
theorem walk_error_cases {here : Place} {segments : List String} {e : OsError}
    (hplain : ∀ s ∈ segments, s ≠ "." ∧ s ≠ "..") (hdir : t.get? here = some .directory)
    (h : t.walk here segments = .error e) :
    t.MeetsLongName here (segments.filter (· ≠ "")) ∧ e = .nameTooLong ∨
      ¬ t.MeetsLongName here (segments.filter (· ≠ "")) ∧
        (t.MeetsFile (here ++ segments.filter (· ≠ "")) ∧ e = .notADirectory ∨
          ¬ t.MeetsFile (here ++ segments.filter (· ≠ "")) ∧ e = .notFound) := by
  induction segments generalizing here with
  | nil => cases h
  | cons s rest ih =>
    obtain ⟨hdot, hdots⟩ := hplain s List.mem_cons_self
    have hrest : ∀ x ∈ rest, x ≠ "." ∧ x ≠ ".." := fun x hx => hplain x (List.mem_cons_of_mem _ hx)
    by_cases hs : s = ""
    · subst hs
      rw [walk_cons, step_stay hdir (.inl rfl)] at h
      rw [List.filter_cons_of_neg (by simp)]
      exact ih hrest hdir h
    · have happend : here ++ s :: rest.filter (· ≠ "") = here ++ [s] ++ rest.filter (· ≠ "") := by
        rw [List.append_assoc, List.singleton_append]
      rw [List.filter_cons_of_pos (by simpa using hs), happend]
      rw [walk_cons, step_name hdir ⟨hs, hdot, hdots⟩] at h
      by_cases hlong : maxName < s.utf8ByteSize
      · rw [child_long hlong] at h
        cases h
        exact .inl ⟨⟨[], s, _, rfl, hlong, by rwa [List.append_nil]⟩, rfl⟩
      · rw [child_eq (Nat.not_lt.1 hlong)] at h
        rw [meetsLongName_cons (Nat.not_lt.1 hlong)]
        cases hchild : t.get? (here ++ [s]) with
        | none =>
          simp only [hchild, Option.isSome_none, Bool.false_eq_true, if_false, Except.bind] at h
          cases h
          refine .inr ⟨not_meetsLongName (by simp [hchild]), .inr ⟨?_, rfl⟩⟩
          rintro ⟨q, content, hq, hfile⟩
          exact not_file_above hdir hchild hq content hfile
        | some entry =>
          simp only [hchild, Option.isSome_some, if_true, Except.bind] at h
          cases entry with
          | directory => exact ih hrest hchild h
          | file content =>
            have hfile : t.get? (here ++ [s]) ≠ some .directory := by simp [hchild]
            refine .inr ⟨not_meetsLongName hfile, .inl ⟨?_, walk_of_file hfile h⟩⟩
            exact ⟨here ++ [s], content, List.prefix_append _ _, hchild⟩

end Walks

/-! ## Two trees -/

/-- Both trees have the same at the place, and the same files above it. -/
structure Alike (place : Place) (t u : FileTree) : Prop where
  ends : t.get? place = u.get? place
  files : ∀ q content, q <+: place → (t.get? q = some (.file content) ↔ u.get? q = some (.file content))

section Pairs
variable {t u : FileTree} {place p : Place} {path : String}

theorem Alike.refl (place : Place) (t : FileTree) : Alike place t t := ⟨rfl, fun _ _ _ => .rfl⟩

theorem Alike.symm (h : Alike place t u) : Alike place u t :=
  ⟨h.ends.symm, fun q content hq => (h.files q content hq).symm⟩

theorem Alike.trans {v : FileTree} (h : Alike place t u) (h' : Alike place u v) : Alike place t v :=
  ⟨h.ends.trans h'.ends, fun q content hq => (h.files q content hq).trans (h'.files q content hq)⟩

/-- Directories that are made along a path look alike from elsewhere. -/
theorem GrownBy.alike {directory : String} (h : GrownBy (Path.ancestors directory) t u) (hplain : Path.Plain directory)
    (hout : ¬ place <+: Path.place directory) : Alike place t u := by
  refine ⟨?_, fun q content _ => (h.get?_file q content).symm⟩
  rcases h place with hsame | ⟨-, -, path, hmem, hresolve⟩
  · exact hsame.symm
  · obtain ⟨hpath, hnames⟩ := hplain.mem_ancestors hmem
    refine absurd ?_ hout
    rw [resolve_place hresolve, hpath.place_eq, hplain.place_eq]
    exact hnames

theorem Free.get?_put_directory (h : t.Free p) (content : Bytes) (q : Place) :
    (t.put p (.file content)).get? q = some .directory ↔ t.get? q = some .directory := by
  rw [h.get?_put]
  split
  · next hq =>
    subst hq
    simp [h.2.2]
  · rfl

/-- A file that is put elsewhere looks alike. -/
theorem Free.alike (h : t.Free p) (hout : ¬ p <+: place) (content : Bytes) :
    Alike place t (t.put p (.file content)) := by
  have hsame : ∀ q, q <+: place → (t.put p (.file content)).get? q = t.get? q := by
    intro q hq
    rw [h.get?_put, if_neg]
    rintro rfl
    exact hout hq
  refine ⟨(hsame place (List.prefix_refl _)).symm, fun q other hq => ?_⟩
  rw [hsame q hq]

theorem Alike.resolve (h : Alike (Path.place path) t u) (hplain : Path.Plain path) (hr : u.resolve path = .ok p) :
    t.resolve path = .ok p := by
  obtain ⟨hcheck, hwalk⟩ := resolve_eq_ok.1 hr
  have hends := h.ends
  rw [← resolve_place hr] at hends
  exact resolve_eq_ok.2 ⟨hcheck, walk_congr hplain.2 rfl hends hwalk⟩

theorem Alike.resolve_iff (h : Alike (Path.place path) t u) (hplain : Path.Plain path) :
    t.resolve path = .ok p ↔ u.resolve path = .ok p :=
  ⟨h.symm.resolve hplain, h.resolve hplain⟩

theorem Alike.exists?_eq (h : Alike (Path.place path) t u) (hplain : Path.Plain path) :
    t.exists? path = u.exists? path := by
  rw [Bool.eq_iff_iff, exists?_iff, exists?_iff]
  exact exists_congr fun p => h.resolve_iff hplain

theorem Alike.read_of_resolve (h : Alike (Path.place path) t u) (hplain : Path.Plain path)
    (hr : t.resolve path = .ok p) : t.read path = u.read path := by
  have hends := h.ends
  rw [← resolve_place hr] at hends
  rw [FileTree.read_of_resolve hr, FileTree.read_of_resolve ((h.resolve_iff hplain).1 hr), hends]

theorem Alike.read_of_exists (h : Alike (Path.place path) t u) (hplain : Path.Plain path)
    (hexists : t.exists? path = true) : t.read path = u.read path := by
  obtain ⟨p, hr⟩ := exists?_iff.1 hexists
  exact h.read_of_resolve hplain hr

theorem resolve_error_cases {e : OsError} (hplain : Path.Plain path) (hcheck : checkPath path = .ok ())
    (h : t.resolve path = .error e) :
    t.MeetsLongName [] (Path.place path) ∧ e = .nameTooLong ∨
      ¬ t.MeetsLongName [] (Path.place path) ∧
        (t.MeetsFile (Path.place path) ∧ e = .notADirectory ∨ ¬ t.MeetsFile (Path.place path) ∧ e = .notFound) := by
  have hwalk : t.walk [] (Path.segments path) = .error e := by
    simpa [FileTree.resolve, hcheck, Bind.bind, Except.bind] using h
  rw [hplain.place_eq, hplain.names_eq]
  exact walk_error_cases hplain.2 rfl hwalk

theorem Alike.meetsFile_iff (h : Alike place t u) : t.MeetsFile place ↔ u.MeetsFile place := by
  constructor
  · rintro ⟨q, content, hq, hfile⟩
    exact ⟨q, content, hq, (h.files q content hq).1 hfile⟩
  · rintro ⟨q, content, hq, hfile⟩
    exact ⟨q, content, hq, (h.files q content hq).2 hfile⟩

theorem meetsLongName_congr {names : List String}
    (h : ∀ above name below, names = above ++ name :: below → maxName < name.utf8ByteSize →
      (t.get? above = some .directory ↔ u.get? above = some .directory)) :
    t.MeetsLongName [] names ↔ u.MeetsLongName [] names := by
  constructor
  · rintro ⟨above, name, below, hnames, hlong, hdir⟩
    exact ⟨above, name, below, hnames, hlong, (h above name below hnames hlong).1 hdir⟩
  · rintro ⟨above, name, below, hnames, hlong, hdir⟩
    exact ⟨above, name, below, hnames, hlong, (h above name below hnames hlong).2 hdir⟩

/-- A path reads the same, also where nothing can be read, unless one of the trees lacks a directory for a name that is
too long. -/
theorem Alike.read_eq (h : Alike (Path.place path) t u) (hplain : Path.Plain path)
    (hlong : t.MeetsLongName [] (Path.place path) ↔ u.MeetsLongName [] (Path.place path)) :
    t.read path = u.read path := by
  cases ht : t.resolve path with
  | ok p => exact h.read_of_resolve hplain ht
  | error e =>
    cases hu : u.resolve path with
    | ok p => exact (h.symm.read_of_resolve hplain hu).symm
    | error e' =>
      rw [read_of_error ht, read_of_error hu]
      cases hcheck : checkPath path with
      | error x =>
        simp only [FileTree.resolve, hcheck, Bind.bind, Except.bind] at ht hu
        cases ht
        cases hu
        rfl
      | ok _ =>
        have het := resolve_error_cases hplain hcheck ht
        have heu := resolve_error_cases hplain hcheck hu
        rw [hlong, h.meetsFile_iff] at het
        -- the conditions agree now, and each of them gives one error
        rcases het with ⟨hl, rfl⟩ | ⟨hl, ⟨hf, rfl⟩ | ⟨hf, rfl⟩⟩
        · rcases heu with ⟨-, rfl⟩ | ⟨hl', -⟩
          · rfl
          · exact absurd hl hl'
        · rcases heu with ⟨hl', -⟩ | ⟨-, ⟨-, rfl⟩ | ⟨hf', -⟩⟩
          · exact absurd hl' hl
          · rfl
          · exact absurd hf hf'
        · rcases heu with ⟨hl', -⟩ | ⟨-, ⟨hf', -⟩ | ⟨-, rfl⟩⟩
          · exact absurd hl' hl
          · exact absurd hf' hf
          · rfl

end Pairs
end Attestation.FileTree
