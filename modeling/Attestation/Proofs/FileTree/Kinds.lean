import Attestation.Proofs.FileTree.Grow

/-!
# Trees with the same kinds of entries

* `Path.way path` : the places that a path comes by;
* `SameKinds places t u` : at each of the places both trees have nothing, both a directory, or both a file;
* `SameKinds.makeDirectories`, `SameKinds.write` : along such places directories are made, and files written, in both
  trees or in neither, and then for the same reason.
-/

namespace Attestation

namespace Path

/-- Where segments lead from the root. -/
def reach (segments : List String) : List String := (segments.filter fun s => s ≠ "" ∧ s ≠ ".").foldl descend []

/-- The places that a path comes by: where its first segments lead, from none of them to all. -/
def way (path : String) : List (List String) := (segments path).inits.map reach

theorem reach_mem_way {path : String} {first : List String} (h : first <+: segments path) : reach first ∈ way path :=
  List.mem_map_of_mem (List.mem_inits _ _ |>.2 h)

end Path

namespace FileTree

theorem reach_concat {first : List String} {s : String} (hs : IsName s) :
    Path.reach (first ++ [s]) = Path.reach first ++ [s] := by
  obtain ⟨hempty, hdot, hdots⟩ := hs
  rw [Path.reach, List.filter_append, List.filter_singleton, List.foldl_append]
  simp [hempty, hdot, Path.descend, hdots, Path.reach]

/-- At each of the places both trees have nothing, or both a directory, or both a file. -/
structure SameKinds (places : List Place) (t u : FileTree) : Prop where
  directory : ∀ p ∈ places, t.get? p = some .directory ↔ u.get? p = some .directory
  occupied : ∀ p ∈ places, (t.get? p).isSome = (u.get? p).isSome

section Kinds
variable {places : List Place} {t u : FileTree} {path : String}

/-! ## Walks -/

theorem SameKinds.step (h : SameKinds places t u) {here : Place} {s : String} (hhere : here ∈ places)
    (hname : IsName s → here ++ [s] ∈ places) : t.step here s = u.step here s := by
  by_cases hdir : t.get? here = some .directory
  · have hdir' := (h.directory here hhere).1 hdir
    by_cases hstay : s = "" ∨ s = "."
    · rw [step_stay hdir hstay, step_stay hdir' hstay]
    · by_cases hup : s = ".."
      · rw [hup, step_up hdir, step_up hdir']
      · have hs : IsName s := ⟨fun hc => hstay (.inl hc), fun hc => hstay (.inr hc), hup⟩
        rw [step_name hdir hs, step_name hdir' hs, child, child, h.occupied _ (hname hs)]
  · rw [step_file hdir, step_file fun hc => hdir ((h.directory here hhere).2 hc)]

theorem SameKinds.walk (h : SameKinds places t u) {segments : List String}
    (hway : ∀ first, first <+: segments → Path.reach first ∈ places) : t.walk [] segments = u.walk [] segments := by
  induction segments using List.reverseRecOn with
  | nil => rfl
  | append_singleton first s ih =>
    rw [walk_append, walk_append, ih fun a ha => hway a (ha.trans (List.prefix_append _ _))]
    cases hwalk : u.walk [] first with
    | error e => rfl
    | ok here =>
      have hhere : here = Path.reach first := walk_place hwalk
      have hstep : t.step here s = u.step here s := by
        rw [hhere]
        refine h.step (hway _ (List.prefix_append _ _)) fun hs => ?_
        rw [← reach_concat hs]
        exact hway _ (List.prefix_refl _)
      simp only [Except.bind, walk_cons, hstep]
      rfl

theorem SameKinds.resolve (h : SameKinds places t u) (hway : Path.way path ⊆ places) :
    t.resolve path = u.resolve path := by
  unfold FileTree.resolve
  rw [h.walk fun first hfirst => hway (Path.reach_mem_way hfirst)]

theorem SameKinds.isDirectory (h : SameKinds places t u) (hway : Path.way path ⊆ places) :
    t.isDirectory path = u.isDirectory path := by
  unfold FileTree.isDirectory
  rw [h.resolve hway]
  cases hresolve : u.resolve path with
  | error e => rfl
  | ok p =>
    have hp : p = Path.reach (Path.segments path) := resolve_place hresolve
    have hmem : p ∈ places := by
      rw [hp]
      exact hway (Path.reach_mem_way (List.prefix_refl _))
    simp only [h.directory p hmem]

/-! ## One file or directory -/

theorem SameKinds.target (h : SameKinds places t u) (hway : Path.way path ⊆ places) :
    t.target path = u.target path := by
  rcases exists_last (Path.segments path) with hblank | ⟨above, last, n, hsegments, hlast⟩
  · rw [target_of_blank hblank, target_of_blank hblank]
  · have habove : ∀ first, first <+: above → Path.reach first ∈ places := by
      intro first hfirst
      refine hway (Path.reach_mem_way (hfirst.trans ?_))
      rw [hsegments]
      exact List.prefix_append _ _
    rw [target_of_last hsegments hlast, target_of_last hsegments hlast, h.walk habove]
    cases hwalk : u.walk [] above with
    | error e => rfl
    | ok here =>
      have hhere : here ∈ places := by
        rw [show here = Path.reach above from walk_place hwalk]
        exact habove above (List.prefix_refl _)
      simp only [Except.bind, ne_eq, h.directory here hhere]

theorem target_mem_way {here : Place} {name : String} {slash : Bool}
    (h : t.target path = .ok (.name here name slash)) : here ++ [name] ∈ Path.way path := by
  obtain ⟨-, -, hname, above, n, hsegments, hwalk, -⟩ := target_eq_name h
  rw [show here = Path.reach above from walk_place hwalk, ← reach_concat hname]
  refine Path.reach_mem_way ?_
  rw [hsegments]
  exact ⟨List.replicate n "", by simp⟩

/-- The result without the tree. -/
def outcome (result : Except OsError FileTree) : Except OsError Unit := result.map fun _ => ()

theorem outcome_cases {first second : Except OsError FileTree} (h : outcome first = outcome second) :
    (∃ e, first = .error e ∧ second = .error e) ∨ ∃ t u, first = .ok t ∧ second = .ok u := by
  cases first with
  | error e =>
    cases second with
    | error e' =>
      cases h
      exact .inl ⟨e, rfl, rfl⟩
    | ok u => cases h
  | ok t =>
    cases second with
    | error e' => cases h
    | ok u => exact .inr ⟨t, u, rfl, rfl⟩

theorem SameKinds.write (h : SameKinds places t u) (hway : Path.way path ⊆ places) (first second : Bytes) :
    outcome (t.write path first) = outcome (u.write path second) := by
  unfold FileTree.write
  rw [h.target hway]
  cases htarget : u.target path with
  | error e => rfl
  | ok target =>
    cases target with
    | noName => rfl
    | name here name slash =>
      have hdirectory := h.directory _ (hway (target_mem_way htarget))
      cases slash with
      | true => rfl
      | false =>
        simp only [Bind.bind, Except.bind, hdirectory]
        split
        · rfl
        · split <;> rfl

theorem SameKinds.put (h : SameKinds places t u) {p : Place} (ht : t.Free p) (hu : u.Free p) (entry : Entry) :
    SameKinds places (t.put p entry) (u.put p entry) := by
  constructor
  · intro q hq
    rw [ht.get?_put, hu.get?_put]
    split
    · rfl
    · exact h.directory q hq
  · intro q hq
    rw [ht.get?_put, hu.get?_put]
    split
    · rfl
    · exact h.occupied q hq

theorem SameKinds.outcome_makeDirectory (h : SameKinds places t u) (hway : Path.way path ⊆ places) :
    outcome (t.makeDirectory path) = outcome (u.makeDirectory path) := by
  unfold FileTree.makeDirectory
  rw [h.target hway]
  cases htarget : u.target path with
  | error e => rfl
  | ok target =>
    cases target with
    | noName => rfl
    | name here name slash =>
      have hoccupied := h.occupied _ (hway (target_mem_way htarget))
      simp only [Bind.bind, Except.bind, hoccupied]
      split
      · rfl
      · split <;> rfl

/-- A directory is made in both trees, or in neither. -/
theorem SameKinds.makeDirectory (h : SameKinds places t u) (hway : Path.way path ⊆ places) :
    (∃ e, t.makeDirectory path = .error e ∧ u.makeDirectory path = .error e) ∨
      ∃ t' u', t.makeDirectory path = .ok t' ∧ u.makeDirectory path = .ok u' ∧ SameKinds places t' u' := by
  rcases outcome_cases (h.outcome_makeDirectory hway) with herror | ⟨t', u', ht, hu⟩
  · exact .inl herror
  · obtain ⟨p, -, hfree, rfl, hresolve⟩ := makeDirectory_cases ht
    obtain ⟨q, -, hfree', rfl, hresolve'⟩ := makeDirectory_cases hu
    obtain rfl : p = q := (resolve_place hresolve).trans (resolve_place hresolve').symm
    exact .inr ⟨_, _, ht, hu, h.put hfree hfree' .directory⟩

/-! ## Several directories -/

theorem SameKinds.makeFirst (h : SameKinds places t u) {paths : List String}
    (hways : ∀ path ∈ paths, Path.way path ⊆ places) :
    (t.makeFirst paths).1 = (u.makeFirst paths).1 ∧
      SameKinds places (t.makeFirst paths).2 (u.makeFirst paths).2 := by
  induction paths with
  | nil => exact ⟨rfl, h⟩
  | cons path above ih =>
    have hway := hways path List.mem_cons_self
    obtain ⟨hresult, hkinds⟩ := ih fun q hq => hways q (List.mem_cons_of_mem _ hq)
    rw [FileTree.makeFirst, FileTree.makeFirst]
    rcases h.makeDirectory hway with ⟨e, ht, hu⟩ | ⟨t', u', ht, hu, h'⟩
    · rw [ht, hu]
      by_cases hnotFound : e = .notFound
      · -- those above are made first, and then it is tried again in trees that have the same kinds still
        simp only [if_pos hnotFound]
        cases hta : t.makeFirst above with
        | mk result v =>
          cases hua : u.makeFirst above with
          | mk result' v' =>
            rw [hta, hua] at hresult hkinds
            obtain rfl : result = result' := hresult
            cases result with
            | error x => exact ⟨rfl, hkinds⟩
            | ok _ =>
              rcases hkinds.makeDirectory hway with ⟨x, hv, hv'⟩ | ⟨w, w', hv, hv', hagain⟩
              · simp only [hv, hv', hkinds.isDirectory hway]
                split <;> exact ⟨rfl, hkinds⟩
              · simp only [hv, hv', true_and]
                exact hagain
      · simp only [if_neg hnotFound, h.isDirectory hway]
        split <;> exact ⟨rfl, h⟩
    · rw [ht, hu]
      exact ⟨rfl, h'⟩

theorem SameKinds.makeDirectories (h : SameKinds places t u)
    (hways : ∀ directory ∈ Path.ancestors path, Path.way directory ⊆ places) :
    (t.makeDirectories path).1 = (u.makeDirectories path).1 ∧
      SameKinds places (t.makeDirectories path).2 (u.makeDirectories path).2 := by
  unfold FileTree.makeDirectories
  split
  · exact ⟨rfl, h⟩
  · exact h.makeFirst hways

end Kinds
end FileTree

end Attestation
