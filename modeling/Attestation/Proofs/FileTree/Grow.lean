import Attestation.Proofs.FileTree.Walk

/-!
# Writing into a file tree

* `WritesAt t path p` : a file can be written at `path`, and then stands at `p`; whether it can does not depend on the
  content (`write_cases`), and a second file takes the place of the first (`WritesAt.again`);
* `GrownBy paths t u` : `u` is `t` with more directories, each of which one of the paths reaches;
* `Attempt`, `makeFirst_cases` : what one attempt to make a directory can do, and how attempts follow each other;
* `makeDirectories_grownBy` : that is all that making directories does, also where it fails.
-/

namespace Attestation.FileTree

/-! ## The last name of a path -/

theorem exists_last (segments : List String) :
    (∀ s ∈ segments, s = "") ∨
      ∃ above last n, segments = above ++ last :: List.replicate n "" ∧ last ≠ "" := by
  induction segments using List.reverseRecOn with
  | nil => exact .inl (by simp)
  | append_singleton rest s ih =>
    by_cases hs : s = ""
    · subst hs
      rcases ih with hblank | ⟨above, last, n, rfl, hlast⟩
      · refine .inl fun x hx => ?_
        rcases List.mem_append.1 hx with hx | hx
        · exact hblank x hx
        · exact List.mem_singleton.1 hx
      · refine .inr ⟨above, last, n + 1, ?_, hlast⟩
        rw [List.append_assoc, List.cons_append, List.replicate_succ']
    · exact .inr ⟨rest, s, 0, rfl, hs⟩

theorem getLast?_intercalate (l : List (List Char)) (hl : l ≠ []) :
    (['/'].intercalate (l ++ [[]])).getLast? = some '/' := by
  induction l with
  | nil => exact absurd rfl hl
  | cons x rest ih =>
    cases rest with
    | nil => simp [List.intercalate, List.intersperse]
    | cons y rest =>
      have hrest := ih (by simp)
      have hne : ['/'].intercalate (y :: rest ++ [[]]) ≠ [] := by
        intro hc
        rw [hc] at hrest
        cases hrest
      have hcons : ['/'].intercalate (x :: y :: rest ++ [[]]) = x ++ '/' :: ['/'].intercalate (y :: rest ++ [[]]) := rfl
      rw [hcons, List.getLast?_append_cons, List.getLast?_cons, hrest]
      rfl

/-- Only a path that ends with a slash has an empty segment at its end, the empty path apart. -/
theorem getLast?_of_segments {path : String} {l : List String} (hl : l ≠ []) (h : Path.segments path = l ++ [""]) :
    path.toList.getLast? = some '/' := by
  obtain ⟨l', last, hsplit, rfl, hlast⟩ := List.map_eq_append_iff.1 h
  have hlast : last = [[]] := by
    cases last with
    | nil => cases hlast
    | cons x rest =>
      obtain ⟨hx, hrest⟩ := List.cons.inj hlast
      have hnil : x = [] := by simpa using congrArg String.toList hx
      rw [hnil, List.map_eq_nil_iff.1 hrest]
  have htext : ['/'].intercalate (path.toList.splitOn '/') = path.toList := List.intercalate_splitOn '/'
  rw [← htext, hsplit, hlast]
  exact getLast?_intercalate l' (by simpa using hl)

section Targets
variable {t : FileTree} {path : String}

theorem target_of_blank (h : ∀ s ∈ Path.segments path, s = "") :
    t.target path = (checkPath path).map fun _ => Target.noName := by
  have hdrop : (Path.segments path).reverse.dropWhile (· = "") = [] := by
    rw [List.dropWhile_eq_nil_iff]
    simpa using h
  unfold target
  rw [hdrop]
  cases checkPath path <;> rfl

theorem target_of_last {above : List String} {last : String} {n : Nat}
    (h : Path.segments path = above ++ last :: List.replicate n "") (hlast : last ≠ "") :
    t.target path = (checkPath path).bind fun _ => (t.walk [] above).bind fun here =>
      if t.get? here ≠ some .directory then .error .notADirectory
      else if last = "." ∨ last = ".." then .ok .noName
      else .ok (.name here last (path.toList.getLast? = some '/')) := by
  have hdrop : (Path.segments path).reverse.dropWhile (· = "") = last :: above.reverse := by
    rw [h, List.reverse_append, List.reverse_cons, List.append_assoc, List.reverse_replicate,
      List.dropWhile_append_of_pos (by simp), List.singleton_append, List.dropWhile_cons_of_neg (by simpa using hlast)]
  unfold target
  rw [hdrop]
  cases checkPath path with
  | error e => rfl
  | ok u =>
    simp only [Bind.bind, Except.bind, List.reverse_reverse]
    cases t.walk [] above with
    | error e => rfl
    | ok here =>
      simp only
      split
      · rfl
      · split <;> rfl

/-- What a target says about a path. -/
theorem target_eq_name {here : Place} {name : String} {slash : Bool} (h : t.target path = .ok (.name here name slash)) :
    checkPath path = .ok () ∧ t.get? here = some .directory ∧ IsName name ∧
      ∃ above n, Path.segments path = above ++ name :: List.replicate n "" ∧ t.walk [] above = .ok here ∧
        (slash = false → n = 0) := by
  rcases exists_last (Path.segments path) with hblank | ⟨above, last, n, hsegments, hlast⟩
  · rw [target_of_blank hblank] at h
    cases hcheck : checkPath path <;> rw [hcheck] at h <;> cases h
  · rw [target_of_last hsegments hlast] at h
    cases hcheck : checkPath path with
    | error e => rw [hcheck] at h; cases h
    | ok u =>
      rw [hcheck] at h
      cases hwalk : t.walk [] above with
      | error e => rw [hwalk] at h; cases h
      | ok here' =>
        rw [hwalk] at h
        simp only [Except.bind] at h
        split at h
        · cases h
        · next hdir =>
          split at h
          · cases h
          · next hdots =>
            cases h
            refine ⟨rfl, not_not.1 hdir, ⟨hlast, fun hc => hdots (.inl hc), fun hc => hdots (.inr hc)⟩, above, n,
              hsegments, hwalk, fun hslash => ?_⟩
            cases n with
            | zero => rfl
            | succ n =>
              rw [List.replicate_succ', ← List.cons_append, ← List.append_assoc] at hsegments
              have hend := getLast?_of_segments (by simp) hsegments
              simp [hend] at hslash

theorem Keeps.target {u : FileTree} (hk : Keeps t u) {here : Place} {name : String} {slash : Bool}
    (h : t.target path = .ok (.name here name slash)) : u.target path = .ok (.name here name slash) := by
  rcases exists_last (Path.segments path) with hblank | ⟨above, last, n, hsegments, hlast⟩
  · rw [target_of_blank hblank] at h
    cases hcheck : checkPath path <;> rw [hcheck] at h <;> cases h
  · obtain ⟨-, hdir, -⟩ := target_eq_name h
    rw [target_of_last hsegments hlast] at h ⊢
    cases hwalk : t.walk [] above with
    | error e =>
      rw [hwalk] at h
      cases hcheck : checkPath path <;> rw [hcheck] at h <;> cases h
    | ok here' =>
      rw [hwalk] at h
      rw [hk.walk hwalk]
      cases hcheck : checkPath path with
      | error e => rw [hcheck] at h; cases h
      | ok v =>
        rw [hcheck] at h
        simp only [Except.bind] at h ⊢
        have hdir' : t.get? here' = some .directory := by
          by_contra hc
          rw [if_pos hc] at h
          cases h
        rw [if_neg (not_not.2 hdir')] at h
        rw [if_neg (not_not.2 (hk.directory _ hdir'))]
        exact h

/-- What stands at a target is what the path reaches. -/
theorem resolve_of_target {here : Place} {name : String} {slash : Bool}
    (h : t.target path = .ok (.name here name slash)) (hlong : name.utf8ByteSize ≤ maxName) {entry : Entry}
    (hentry : t.get? (here ++ [name]) = some entry) (hslash : slash = false ∨ entry = .directory) : t.resolve path = .ok (here ++ [name]) := by
  obtain ⟨hcheck, hdir, hname, above, n, hsegments, hwalk, hzero⟩ := target_eq_name h
  have hstep : t.step here name = .ok (here ++ [name]) := by
    rw [step_name hdir hname, child_eq hlong, if_pos (by rw [hentry]; rfl)]
  refine resolve_eq_ok.2 ⟨hcheck, ?_⟩
  rw [hsegments]
  refine walk_append_eq_ok.2 ⟨here, hwalk, walk_cons_eq_ok.2 ⟨_, hstep, ?_⟩⟩
  rcases hslash with hslash | rfl
  · rw [hzero hslash]
    rfl
  · exact walk_replicate hentry n

end Targets

/-! ## Files -/

/-- A file can be written at the path, and then stands at `p`. -/
def WritesAt (t : FileTree) (path : String) (p : Place) : Prop :=
  t.get? p ≠ some .directory ∧ ∃ here name, p = here ++ [name] ∧ name.utf8ByteSize ≤ maxName ∧
    t.target path = .ok (.name here name false)

section Files
variable {t : FileTree} {path : String} {p : Place}

theorem WritesAt.free (h : t.WritesAt path p) : t.Free p := by
  obtain ⟨hdir, here, name, rfl, -, htarget⟩ := h
  refine ⟨by simp, ?_, hdir⟩
  rw [List.dropLast_concat]
  exact (target_eq_name htarget).2.1

theorem WritesAt.write (h : t.WritesAt path p) (content : Bytes) :
    t.write path content = .ok (t.put p (.file content)) := by
  obtain ⟨hdir, here, name, rfl, hlong, htarget⟩ := h
  unfold FileTree.write
  rw [htarget]
  simp [Bind.bind, Except.bind, Nat.not_lt.2 hlong, hdir, Pure.pure, Except.pure]

theorem WritesAt.again (h : t.WritesAt path p) (content : Bytes) : (t.put p (.file content)).WritesAt path p := by
  have hfree := h.free
  obtain ⟨-, here, name, rfl, hlong, htarget⟩ := h
  exact ⟨(hfree.put_file content).2.2, here, name, rfl, hlong, (hfree.keeps _).target htarget⟩

theorem WritesAt.resolve (h : t.WritesAt path p) (content : Bytes) :
    (t.put p (.file content)).resolve path = .ok p := by
  have hput := h.free.get?_put (.file content) p
  rw [if_pos rfl] at hput
  obtain ⟨-, here, name, rfl, hlong, htarget⟩ := h.again content
  exact resolve_of_target htarget hlong hput (.inl rfl)

theorem WritesAt.read (h : t.WritesAt path p) (content : Bytes) : (t.put p (.file content)).read path = .ok content :=
  read_eq_ok.2 ⟨p, h.resolve content, by rw [h.free.get?_put, if_pos rfl]⟩

/-- Whether a file can be written, and where, does not depend on its content. -/
theorem write_cases (t : FileTree) (path : String) :
    (∃ p, t.WritesAt path p) ∨ ∃ e, ∀ content, t.write path content = .error e := by
  cases htarget : t.target path with
  | error e =>
    refine .inr ⟨e, fun content => ?_⟩
    unfold write
    rw [htarget]
    rfl
  | ok target =>
    cases target with
    | noName =>
      refine .inr ⟨.isADirectory, fun content => ?_⟩
      unfold write
      rw [htarget]
      rfl
    | name here name slash =>
      by_cases hslash : slash = true
      · subst hslash
        refine .inr ⟨.isADirectory, fun content => ?_⟩
        unfold write
        rw [htarget]
        rfl
      · rw [Bool.not_eq_true] at hslash
        subst hslash
        by_cases hlong : maxName < name.utf8ByteSize
        · refine .inr ⟨.nameTooLong, fun content => ?_⟩
          unfold write
          rw [htarget]
          simp [Bind.bind, Except.bind, hlong, throw, throwThe, MonadExceptOf.throw]
        · by_cases hdir : t.get? (here ++ [name]) = some .directory
          · refine .inr ⟨.isADirectory, fun content => ?_⟩
            unfold write
            rw [htarget]
            simp [Bind.bind, Except.bind, hlong, hdir, throw, throwThe, MonadExceptOf.throw]
          · exact .inl ⟨_, hdir, here, name, rfl, Nat.not_lt.1 hlong, htarget⟩

end Files

/-! ## Directories -/

/-- `u` is `t` with more directories, each of which one of the paths reaches. -/
def GrownBy (paths : List String) (t u : FileTree) : Prop :=
  ∀ p, u.get? p = t.get? p ∨
    t.get? p = none ∧ u.get? p = some .directory ∧ ∃ path ∈ paths, u.resolve path = .ok p

section Growing
variable {t u v : FileTree} {path : String} {paths : List String}

theorem GrownBy.refl (paths : List String) (t : FileTree) : GrownBy paths t t := fun _ => .inl rfl

theorem GrownBy.keeps (h : GrownBy paths t u) : Keeps t u := by
  constructor
  · intro p hp
    rcases h p with hsame | ⟨-, hdir, -⟩
    · rw [hsame, hp]
    · exact hdir
  · intro p hp
    rcases h p with hsame | ⟨-, hdir, -⟩
    · rwa [hsame]
    · rw [hdir]
      rfl

theorem GrownBy.trans (h : GrownBy paths t u) (h' : GrownBy paths u v) : GrownBy paths t v := by
  intro p
  rcases h p with hsame | ⟨hnone, hdir, path, hmem, hresolve⟩
  · rw [← hsame]
    exact h' p
  · exact .inr ⟨hnone, h'.keeps.directory p hdir, path, hmem, h'.keeps.resolve hresolve⟩

theorem GrownBy.mono {more : List String} (h : GrownBy paths t u) (hsub : paths ⊆ more) : GrownBy more t u := by
  intro p
  rcases h p with hsame | ⟨hnone, hdir, path, hmem, hresolve⟩
  · exact .inl hsame
  · exact .inr ⟨hnone, hdir, path, hsub hmem, hresolve⟩

theorem GrownBy.get?_file (h : GrownBy paths t u) (p : Place) (content : Bytes) :
    u.get? p = some (.file content) ↔ t.get? p = some (.file content) := by
  rcases h p with hsame | ⟨hnone, hdir, -⟩
  · rw [hsame]
  · simp [hnone, hdir]

theorem GrownBy.read (h : GrownBy paths t u) {content : Bytes} (hread : t.read path = .ok content) :
    u.read path = .ok content := by
  obtain ⟨p, hresolve, hp⟩ := read_eq_ok.1 hread
  exact read_eq_ok.2 ⟨p, h.keeps.resolve hresolve, (h.get?_file p content).2 hp⟩

theorem makeDirectory_cases (h : t.makeDirectory path = .ok u) :
    ∃ p, t.get? p = none ∧ t.Free p ∧ u = t.put p .directory ∧ u.resolve path = .ok p := by
  cases htarget : t.target path with
  | error e =>
    unfold makeDirectory at h
    rw [htarget] at h
    cases h
  | ok target =>
    cases target with
    | noName =>
      unfold makeDirectory at h
      rw [htarget] at h
      cases h
    | name here name slash =>
      unfold makeDirectory at h
      rw [htarget] at h
      simp only [Bind.bind, Except.bind] at h
      split at h
      · cases h
      · next hlong =>
        split at h
        · cases h
        · next hsome =>
          cases h
          have hnone : t.get? (here ++ [name]) = none := by simpa using hsome
          have hfree : t.Free (here ++ [name]) := by
            refine ⟨by simp, ?_, by simp [hnone]⟩
            rw [List.dropLast_concat]
            exact (target_eq_name htarget).2.1
          have hput : (t.put (here ++ [name]) .directory).get? (here ++ [name]) = some .directory := by
            rw [hfree.get?_put, if_pos rfl]
          exact ⟨here ++ [name], hnone, hfree, rfl,
            resolve_of_target ((hfree.keeps _).target htarget) (Nat.not_lt.1 hlong) hput (.inr rfl)⟩

theorem makeDirectory_grownBy (h : t.makeDirectory path = .ok u) : GrownBy [path] t u := by
  obtain ⟨p, hnone, hfree, rfl, hresolve⟩ := makeDirectory_cases h
  intro q
  rw [hfree.get?_put]
  split
  · next hq =>
    subst hq
    exact .inr ⟨hnone, rfl, path, by simp, hresolve⟩
  · exact .inl rfl

theorem makeDirectory_isDirectory (h : t.makeDirectory path = .ok u) : u.isDirectory path = true := by
  obtain ⟨p, hnone, hfree, rfl, hresolve⟩ := makeDirectory_cases h
  exact isDirectory_iff.2 ⟨p, hresolve, by rw [hfree.get?_put, if_pos rfl]⟩

theorem makeDirectory_of_isDirectory (h : t.isDirectory path = true) :
    t.makeDirectory path = .error .alreadyExists := by
  obtain ⟨p, hresolve, hp⟩ := isDirectory_iff.1 h
  obtain ⟨hcheck, hwalk⟩ := resolve_eq_ok.1 hresolve
  unfold makeDirectory
  rcases exists_last (Path.segments path) with hblank | ⟨above, last, n, hsegments, hlast⟩
  · rw [target_of_blank hblank, hcheck]
    rfl
  · rw [hsegments] at hwalk
    obtain ⟨here, habove, hrest⟩ := walk_append_eq_ok.1 hwalk
    obtain ⟨next, hstep, -⟩ := walk_cons_eq_ok.1 hrest
    rw [target_of_last hsegments hlast, hcheck, habove]
    simp only [Except.bind, Bind.bind]
    obtain ⟨hdir, ⟨hstay, -⟩ | ⟨hup, -⟩ | ⟨⟨-, hdot, hdots⟩, hlong, hsome, -⟩⟩ := step_cases hstep
    · rw [if_neg (not_not.2 hdir), if_pos (.inl (hstay.resolve_left hlast))]
    · rw [if_neg (not_not.2 hdir), if_pos (.inr hup)]
    · rw [if_neg (not_not.2 hdir), if_neg (by simp [hdot, hdots])]
      simp [Nat.not_lt.2 hlong, hsome, throw, throwThe, MonadExceptOf.throw]

/-- How one attempt to make a directory ends, if one that is there already is as good as a new one. -/
inductive Attempt (t : FileTree) (path : String) : Except OsError Unit × FileTree → Prop where
  | made {u : FileTree} (h : t.makeDirectory path = .ok u) : Attempt t path (.ok (), u)
  | there (h : t.isDirectory path = true) : Attempt t path (.ok (), t)
  | failed {e : OsError} (h : t.makeDirectory path = .error e) (hdir : t.isDirectory path = false) :
      Attempt t path (.error e, t)

/-- Making the first directory is one attempt, or another one after the attempt to make those that follow it. -/
theorem makeFirst_cases (t : FileTree) (path : String) (above : List String) :
    Attempt t path (t.makeFirst (path :: above)) ∨
      t.makeDirectory path = .error .notFound ∧
        ((∃ e u, t.makeFirst above = (.error e, u) ∧ t.makeFirst (path :: above) = (.error e, u)) ∨
          ∃ u, t.makeFirst above = (.ok (), u) ∧ Attempt u path (t.makeFirst (path :: above))) := by
  rw [makeFirst]
  split
  · next u hu => exact .inl (.made hu)
  · next e he =>
    split
    · next hnotFound =>
      rw [← hnotFound]
      refine .inr ⟨he, ?_⟩
      split
      · next x u hu => exact .inl ⟨x, u, hu, rfl⟩
      · next u hu =>
        refine .inr ⟨u, hu, ?_⟩
        split
        · next v hv => exact .made hv
        · next x hx =>
          split
          · next hdir => exact .there hdir
          · next hdir => exact .failed hx (by simpa using hdir)
    · split
      · next hdir => exact .inl (.there hdir)
      · next hdir => exact .inl (.failed he (by simpa using hdir))

theorem Attempt.isDirectory {result : Except OsError Unit × FileTree} (h : Attempt t path result)
    (hok : result = (.ok (), u)) : u.isDirectory path = true := by
  cases h with
  | made hv =>
    cases hok
    exact makeDirectory_isDirectory hv
  | there hdir =>
    cases hok
    exact hdir
  | failed he hdir => cases hok

theorem Attempt.grownBy {result : Except OsError Unit × FileTree} (h : Attempt t path result) :
    GrownBy [path] t result.2 := by
  cases h with
  | made hv => exact makeDirectory_grownBy hv
  | there hdir => exact .refl _ _
  | failed he hdir => exact .refl _ _

theorem makeFirst_isDirectory {above : List String} (h : t.makeFirst (path :: above) = (.ok (), u)) :
    u.isDirectory path = true := by
  obtain hattempt | ⟨-, ⟨e, v, -, herror⟩ | ⟨v, -, hattempt⟩⟩ := makeFirst_cases t path above
  · exact hattempt.isDirectory h
  · rw [herror] at h
    cases h
  · exact hattempt.isDirectory h

theorem makeFirst_of_isDirectory (h : t.isDirectory path = true) (above : List String) :
    t.makeFirst (path :: above) = (.ok (), t) := by
  unfold makeFirst
  rw [makeDirectory_of_isDirectory h]
  simp [OsError.alreadyExists, OsError.notFound, h]

theorem makeFirst_grownBy (t : FileTree) (paths : List String) : GrownBy paths t (t.makeFirst paths).2 := by
  induction paths with
  | nil => exact .refl _ _
  | cons path above ih =>
    have habove : GrownBy (path :: above) t (t.makeFirst above).2 := ih.mono (by simp)
    obtain hattempt | ⟨-, ⟨e, u, hu, herror⟩ | ⟨u, hu, hattempt⟩⟩ := makeFirst_cases t path above
    · exact hattempt.grownBy.mono (by simp)
    · rw [herror]
      rwa [hu] at habove
    · rw [hu] at habove
      exact habove.trans (hattempt.grownBy.mono (by simp))

/-- Making directories does nothing but that, also where it fails. -/
theorem makeDirectories_grownBy (t : FileTree) (path : String) :
    GrownBy (Path.ancestors path) t (t.makeDirectories path).2 := by
  unfold makeDirectories
  split
  · exact .refl _ _
  · exact makeFirst_grownBy t _

theorem makeDirectories_isDirectory (hpath : path ≠ "") (h : t.makeDirectories path = (.ok (), u)) :
    u.isDirectory path = true := by
  unfold makeDirectories at h
  rw [if_neg (by simpa using hpath)] at h
  exact makeFirst_isDirectory h

theorem makeDirectories_of_isDirectory (h : t.isDirectory path = true) : t.makeDirectories path = (.ok (), t) := by
  unfold makeDirectories
  split
  · rfl
  · exact makeFirst_of_isDirectory h _

end Growing
end Attestation.FileTree
