import Attestation.Proofs.FileTree.Alike

/-!
# Making directories again

Where making the directories of a plain path fails after some of them were made, it fails at a name that is too long.
The same name then stands in the way of all that is below it, so the next attempt fails alike and makes nothing more.

* `enter t names` : the directory that names lead to;
* `makeDirectory_eq`, `isDirectory_eq` : the last name of a plain path, in the directory that the other names lead to;
* `Blocked`, `makeFirst_error` : what stands in the way of a directory, where others were made before that failed;
* `makeDirectories_again` : an attempt after a failed one.
-/

namespace Attestation.FileTree

variable {t u : FileTree}

/-! ## Entering directories -/

/-- Only a directory can be entered. -/
def asDirectory (t : FileTree) (here : Place) : Except OsError Place :=
  if t.get? here = some .directory then .ok here else .error .notADirectory

/-- The directory that names lead to. -/
def enter (t : FileTree) (names : List String) : Except OsError Place := (t.walk [] names).bind t.asDirectory

theorem asDirectory_of_directory {here : Place} (h : t.get? here = some .directory) : t.asDirectory here = .ok here :=
  if_pos h

theorem asDirectory_of_ne {here : Place} (h : t.get? here ≠ some .directory) :
    t.asDirectory here = .error .notADirectory :=
  if_neg h

theorem enter_eq_ok {names : List String} {here : Place} :
    t.enter names = .ok here ↔ t.walk [] names = .ok here ∧ t.get? here = some .directory := by
  unfold enter
  cases t.walk [] names with
  | error e => simp [Except.bind]
  | ok p =>
    by_cases hdir : t.get? p = some .directory
    · simp only [Except.bind, asDirectory_of_directory hdir, Except.ok.injEq]
      exact ⟨fun h => ⟨h, h ▸ hdir⟩, fun h => h.1⟩
    · simp only [Except.bind, asDirectory_of_ne hdir, Except.ok.injEq, reduceCtorEq, false_iff, not_and]
      rintro rfl
      exact hdir

/-- Empty segments make no difference on the way to a directory. -/
theorem walk_asDirectory (t : FileTree) (here : Place) (segments : List String) :
    (t.walk here segments).bind t.asDirectory = (t.walk here (segments.filter (· ≠ ""))).bind t.asDirectory := by
  induction segments generalizing here with
  | nil => rfl
  | cons s rest ih =>
    by_cases hs : s = ""
    · rw [List.filter_cons_of_neg (by simpa using hs), walk_cons]
      by_cases hdir : t.get? here = some .directory
      · rw [step_stay hdir (.inl hs)]
        exact ih here
      · rw [step_file hdir]
        cases rest.filter (· ≠ "") with
        | nil => exact (asDirectory_of_ne hdir).symm
        | cons x others =>
          rw [walk_cons, step_file hdir]
          rfl
    · rw [List.filter_cons_of_pos (by simpa using hs), walk_cons, walk_cons]
      cases t.step here s with
      | error e => rfl
      | ok next => exact ih next

theorem enter_concat {names : List String} {name : String} (hname : IsName name) :
    t.enter (names ++ [name]) = (t.enter names).bind fun here => (t.child here name).bind t.asDirectory := by
  rw [enter, enter, walk_append]
  cases t.walk [] names with
  | error e => rfl
  | ok here =>
    simp only [Except.bind]
    rw [walk_cons]
    by_cases hdir : t.get? here = some .directory
    · rw [step_name hdir hname, asDirectory_of_directory hdir]
      simp only [Except.bind, walk]
      cases t.child here name <;> rfl
    · rw [step_file hdir, asDirectory_of_ne hdir]
      rfl

/-! ## Plain paths -/

section Plain
variable {path name : String} {names : List String}

theorem isName_of_plain (hplain : Path.Plain path) (h : name ∈ Path.names path) : IsName name := by
  refine ⟨(Path.mem_names h).1, (Path.mem_names h).2.1, ?_⟩
  rintro rfl
  exact hplain.not_mem_names h

theorem isDirectory_eq (hplain : Path.Plain path) (hcheck : checkPath path = .ok ()) :
    t.isDirectory path = (t.enter (Path.names path)).isOk := by
  have hwalk : t.enter (Path.names path) = (t.walk [] (Path.segments path)).bind t.asDirectory := by
    rw [walk_asDirectory, enter, hplain.names_eq]
  rw [hwalk, isDirectory, resolve, hcheck]
  simp only [Bind.bind, Except.bind]
  cases t.walk [] (Path.segments path) with
  | error e => rfl
  | ok p =>
    by_cases hdir : t.get? p = some .directory
    · simp [hdir, asDirectory_of_directory hdir, Except.isOk, Except.toBool]
    · simp [hdir, asDirectory_of_ne hdir, Except.isOk, Except.toBool]

theorem target_eq (hplain : Path.Plain path) (hcheck : checkPath path = .ok ())
    (hnames : Path.names path = names ++ [name]) :
    t.target path = (t.enter names).map fun here => .name here name (path.toList.getLast? = some '/') := by
  have hname : IsName name := isName_of_plain hplain (by simp [hnames])
  rcases exists_last (Path.segments path) with hblank | ⟨above, last, n, hsegments, hlast⟩
  · rw [hplain.names_eq, List.filter_eq_nil_iff.2 (by simpa using hblank)] at hnames
    exact absurd hnames (by simp)
  · have hblank : (List.replicate n "").filter (· ≠ "") = [] := List.filter_eq_nil_iff.2 (by simp)
    have hfilter : (above ++ last :: List.replicate n "").filter (· ≠ "") = above.filter (· ≠ "") ++ [last] := by
      rw [List.filter_append, List.filter_cons_of_pos (by simpa using hlast), hblank]
    rw [hplain.names_eq, hsegments, hfilter] at hnames
    obtain ⟨rfl, hlast'⟩ := List.append_inj' hnames rfl
    obtain rfl : last = name := by simpa using hlast'
    rw [target_of_last hsegments hlast, hcheck, enter, ← walk_asDirectory]
    simp only [Except.bind]
    cases t.walk [] above with
    | error e => rfl
    | ok here =>
      simp only
      by_cases hdir : t.get? here = some .directory
      · rw [if_neg (not_not.2 hdir), if_neg (by simp [hname.2.1, hname.2.2]), asDirectory_of_directory hdir]
        rfl
      · rw [if_pos hdir, asDirectory_of_ne hdir]
        rfl

/-- A directory can be entered in one tree if it is one in another tree too. -/
theorem enter_congr (hplain : ∀ s ∈ names, s ≠ "." ∧ s ≠ "..") {here : Place} (hdir : t.get? here = some .directory)
    (h : u.enter names = .ok here) : t.enter names = .ok here := by
  obtain ⟨hwalk, hhere⟩ := enter_eq_ok.1 h
  exact enter_eq_ok.2 ⟨walk_congr hplain rfl (hdir.trans hhere.symm) hwalk, hdir⟩

/-- A directory is made in the directory that the other names lead to. -/
theorem makeDirectory_eq (hplain : Path.Plain path) (hcheck : checkPath path = .ok ())
    (hnames : Path.names path = names ++ [name]) :
    t.makeDirectory path = (t.enter names).bind fun here =>
      if maxName < name.utf8ByteSize then .error .nameTooLong
      else if (t.get? (here ++ [name])).isSome then .error .alreadyExists
      else .ok (t.put (here ++ [name]) .directory) := by
  rw [makeDirectory, target_eq hplain hcheck hnames]
  cases t.enter names with
  | error e => rfl
  | ok here =>
    simp only [Except.map, Except.bind, Bind.bind]
    split
    · rfl
    · split <;> rfl

theorem checkPath_of_notFound (hplain : Path.Plain path) (h : t.makeDirectory path = .error .notFound) :
    checkPath path = .ok () := by
  cases hcheck : checkPath path with
  | ok u => rfl
  | error x =>
    simp only [makeDirectory, target, hcheck, Bind.bind, Except.bind] at h
    cases h
    have hempty : path.isEmpty = true := by
      unfold checkPath at hcheck
      split at hcheck
      · cases hcheck
      · split at hcheck
        · assumption
        · split at hcheck <;> cases hcheck
    rw [String.isEmpty_iff] at hempty
    subst hempty
    exact absurd hplain.1 (by decide +kernel)

/-- A directory has nothing to stand in only if the names before its last one lead nowhere. -/
theorem names_of_notFound (hplain : Path.Plain path) (h : t.makeDirectory path = .error .notFound) :
    checkPath path = .ok () ∧ ∃ names name, Path.names path = names ++ [name] ∧ t.enter names = .error .notFound := by
  have hcheck := checkPath_of_notFound hplain h
  refine ⟨hcheck, ?_⟩
  rcases List.eq_nil_or_concat (Path.names path) with hnil | ⟨names, name, hnames⟩
  · have hblank : ∀ s ∈ Path.segments path, s = "" := by
      rw [hplain.names_eq, List.filter_eq_nil_iff] at hnil
      simpa using hnil
    rw [makeDirectory, target_of_blank hblank, hcheck] at h
    cases h
  · rw [List.concat_eq_append] at hnames
    refine ⟨names, name, hnames, ?_⟩
    rw [makeDirectory_eq hplain hcheck hnames] at h
    cases henter : t.enter names with
    | error e =>
      rw [henter, Except.bind] at h
      cases h
      rfl
    | ok here =>
      rw [henter, Except.bind] at h
      split at h
      · cases h
      · split at h <;> cases h

end Plain

/-! ## Failed attempts -/

/-- An error stands in the way of a directory and of all that is below it. -/
structure Blocked (t : FileTree) (path : String) (e : OsError) : Prop where
  enter : t.enter (Path.names path) = .error e
  makeDirectory : t.makeDirectory path = .error e
  isDirectory : t.isDirectory path = false
  ne_notFound : e ≠ .notFound

section Attempts
variable {path name : String} {names above : List String} {e : OsError}

theorem Blocked.makeFirst (h : Blocked t path e) (above : List String) :
    t.makeFirst (path :: above) = (.error e, t) := by
  rw [FileTree.makeFirst, h.makeDirectory]
  simp [h.ne_notFound, h.isDirectory]

theorem Blocked.of_enter (hplain : Path.Plain path) (hcheck : checkPath path = .ok ())
    (hnames : Path.names path = names ++ [name]) (henter : t.enter names = .error e) (hne : e ≠ .notFound) :
    Blocked t path e := by
  have hname : IsName name := isName_of_plain hplain (by simp [hnames])
  have hpath : t.enter (Path.names path) = .error e := by
    rw [hnames, enter_concat hname, henter]
    rfl
  refine ⟨hpath, ?_, ?_, hne⟩
  · rw [makeDirectory_eq hplain hcheck hnames, henter]
    rfl
  · rw [isDirectory_eq hplain hcheck, hpath]
    rfl

/-- The last name stands in the way, once there is a directory for it: it is too long, since a file would have been in
the way before. -/
theorem Blocked.of_last (hplain : Path.Plain path) (hcheck : checkPath path = .ok ())
    (hnames : Path.names path = names ++ [name]) {directories : List String} (hgrown : GrownBy directories t u)
    (henter : t.enter names = .error .notFound) {here : Place} (hhere : u.enter names = .ok here)
    (hmake : u.makeDirectory path = .error e) (hdir : u.isDirectory path = false) : Blocked u path e := by
  have hname : IsName name := isName_of_plain hplain (by simp [hnames])
  have hresult := hmake
  rw [makeDirectory_eq hplain hcheck hnames, hhere, Except.bind] at hresult
  have hpath : u.enter (Path.names path) = (u.child here name).bind u.asDirectory := by
    rw [hnames, enter_concat hname, hhere, Except.bind]
  split at hresult
  · next hlong =>
    cases hresult
    refine ⟨?_, hmake, hdir, by decide⟩
    rw [hpath, child_long hlong]
    rfl
  · next hlong =>
    split at hresult
    · next hsome =>
      -- what is there is no directory, and a file would have been there in `t`, in a directory
      obtain ⟨entry, hentry⟩ := Option.isSome_iff_exists.1 hsome
      rw [isDirectory_eq hplain hcheck, hpath, child_eq (Nat.not_lt.1 hlong), if_pos hsome, Except.bind] at hdir
      cases entry with
      | directory =>
        rw [asDirectory_of_directory hentry] at hdir
        cases hdir
      | file content =>
        have hfile := (hgrown.get?_file _ content).1 hentry
        have hparent : t.get? here = some .directory := by
          have hdrop := get?_dropLast (by simp) (Option.isSome_iff_exists.2 ⟨_, hfile⟩)
          rwa [List.dropLast_concat] at hdrop
        have hplain' : ∀ s ∈ names, s ≠ "." ∧ s ≠ ".." := fun s hs =>
          (isName_of_plain hplain (by rw [hnames]; exact List.mem_append_left _ hs)).2
        rw [enter_congr hplain' hparent hhere] at henter
        cases henter
    · cases hresult

/-- How making directories can fail: with nothing made, above the path, or at its last name. -/
theorem makeFirst_error_cases (h : t.makeFirst (path :: above) = (.error e, u)) :
    u = t ∨ t.makeDirectory path = .error .notFound ∧
      (t.makeFirst above = (.error e, u) ∨
        t.makeFirst above = (.ok (), u) ∧ u.makeDirectory path = .error e ∧ u.isDirectory path = false) := by
  obtain hattempt | ⟨hfirst, ⟨x, v, hv, herror⟩ | ⟨v, hv, hattempt⟩⟩ := makeFirst_cases t path above
  · rw [h] at hattempt
    cases hattempt
    exact .inl rfl
  · rw [h] at herror
    cases herror
    exact .inr ⟨hfirst, .inl hv⟩
  · rw [h] at hattempt
    cases hattempt with
    | failed hagain hdir => exact .inr ⟨hfirst, .inr ⟨hv, hagain, hdir⟩⟩

/-- If anything was made before making directories failed, then what failed stands in the way of the path. -/
theorem makeFirst_error (hplain : ∀ p ∈ path :: above, Path.Plain p)
    (hchain : (path :: above).IsChain fun p q => Path.names q = (Path.names p).dropLast)
    (h : t.makeFirst (path :: above) = (.error e, u)) : u = t ∨ Blocked u path e := by
  induction above generalizing path with
  | nil =>
    obtain hsame | ⟨-, hmade | ⟨hmade, -⟩⟩ := makeFirst_error_cases h
    · exact .inl hsame
    · cases hmade
    · cases hmade
      exact .inl rfl
  | cons parent rest ih =>
    obtain ⟨hparent, hrest⟩ := List.isChain_cons_cons.1 hchain
    have hplain' : ∀ p ∈ parent :: rest, Path.Plain p := fun p hp => hplain p (List.mem_cons_of_mem _ hp)
    obtain hsame | ⟨hfirst, hmade⟩ := makeFirst_error_cases h
    · exact .inl hsame
    · obtain ⟨hcheck, names, name, hnames, henter⟩ := names_of_notFound (hplain path List.mem_cons_self) hfirst
      rw [hnames, List.dropLast_concat] at hparent
      obtain hmade | ⟨hmade, hagain, hdir⟩ := hmade
      · obtain hsame | hblocked := ih hplain' hrest hmade
        · exact .inl hsame
        · have hbelow := hblocked.enter
          rw [hparent] at hbelow
          exact .inr (.of_enter (hplain path List.mem_cons_self) hcheck hnames hbelow hblocked.ne_notFound)
      · have hgrown := makeFirst_grownBy t (parent :: rest)
        rw [hmade] at hgrown
        have hdirectory := makeFirst_isDirectory hmade
        obtain ⟨p, hresolve, -⟩ := isDirectory_iff.1 hdirectory
        rw [isDirectory_eq (hplain' parent List.mem_cons_self) (resolve_eq_ok.1 hresolve).1, hparent] at hdirectory
        cases hhere : u.enter names with
        | error x =>
          rw [hhere] at hdirectory
          cases hdirectory
        | ok here =>
          exact .inr (.of_last (hplain path List.mem_cons_self) hcheck hnames hgrown henter hhere hagain hdir)

/-- An attempt to make directories fails again as it failed, and makes nothing more. -/
theorem makeDirectories_again (hplain : Path.Plain path) (h : t.makeDirectories path = (.error e, u)) :
    u.makeDirectories path = (.error e, u) := by
  unfold makeDirectories at h ⊢
  split at h
  · cases h
  · next hempty =>
    rw [if_neg hempty]
    rw [Path.ancestors_eq hplain.1] at h ⊢
    have hall : ∀ p ∈ path :: Path.above path (Path.names path).length, Path.Plain p := by
      intro p hp
      rw [← Path.ancestors_eq hplain.1] at hp
      exact (hplain.mem_ancestors hp).1
    have hchain := Path.isChain_ancestors hplain.1
    rw [Path.ancestors_eq hplain.1] at hchain
    obtain rfl | hblocked := makeFirst_error hall hchain h
    · exact h
    · exact hblocked.makeFirst _

end Attempts
end Attestation.FileTree
