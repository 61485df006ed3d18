import Attestation.Proofs.FileTree.Kinds
import Attestation.Proofs.FileTree.Path

/-!
# Changes that are not seen from a path

* `Unseen place paths t u` : the trees differ at the place at most, and none of the paths leads there;
* `Unseen.exists?_eq`, `Unseen.read_eq` : then what exists at the paths is the same, and reads the same;
* `Unseen.of_files`, `Unseen.of_apart` : a file that is made, removed or rewritten at a place to which the paths do not
  lead, and any change at a place by which they do not come.
-/

namespace Attestation.FileTree

/-- The trees have the same outside of the place, and the paths lead elsewhere. Unless the place has no directory in
either tree, the paths do not come by it on their way either. -/
structure Unseen (place : Place) (paths : List String) (t u : FileTree) : Prop where
  outside : ∀ q, ¬ place <+: q → t.get? q = u.get? q
  elsewhere : ∀ path ∈ paths, Path.place path ≠ place
  unmet : (t.get? place ≠ some .directory ∧ u.get? place ≠ some .directory) ∨ ∀ path ∈ paths, place ∉ Path.way path

section Unseen
variable {t u : FileTree} {place : Place} {paths : List String} {path : String}

/-- A walk that does not end at the place, nor go on from a directory there, is the same in both trees. -/
theorem walk_of_outside (houtside : ∀ q, ¬ place <+: q → t.get? q = u.get? q) {segments : List String}
    (hunmet : ∀ first, first <+: segments → Path.reach first = place → t.get? place ≠ some .directory) {p : Place}
    (hp : p ≠ place) (h : t.walk [] segments = .ok p) : u.walk [] segments = .ok p ∧ ¬ place <+: p := by
  induction segments using List.reverseRecOn generalizing p with
  | nil =>
    cases h
    exact ⟨rfl, fun hc => hp (List.prefix_nil.1 hc).symm⟩
  | append_singleton first s ih =>
    obtain ⟨here, hfirst, hlast⟩ := walk_append_eq_ok.1 h
    obtain ⟨next, hstep, hnext⟩ := walk_cons_eq_ok.1 hlast
    cases hnext
    have hcases := step_cases hstep
    have hhere : here ≠ place := by
      rintro rfl
      exact hunmet first (List.prefix_append _ _) (walk_place hfirst).symm hcases.1
    obtain ⟨hwalk, habove⟩ := ih (fun a ha => hunmet a (ha.trans (List.prefix_append _ _))) hhere hfirst
    have hdir : u.get? here = some .directory := by rw [← houtside here habove, hcases.1]
    have hstep' : u.step here s = .ok p ∧ ¬ place <+: p := by
      obtain ⟨-, ⟨hstay, rfl⟩ | ⟨rfl, rfl⟩ | ⟨hname, hlong, hsome, rfl⟩⟩ := hcases
      · exact ⟨step_stay hdir hstay, habove⟩
      · exact ⟨step_up hdir, fun hc => habove (hc.trans (List.dropLast_prefix here))⟩
      · have hbeside : ¬ place <+: here ++ [s] := by
          intro hc
          rcases List.prefix_concat_iff.1 hc with rfl | hc
          · exact hp rfl
          · exact habove hc
        rw [houtside _ hbeside] at hsome
        exact ⟨by rw [step_name hdir hname, child_eq hlong, if_pos hsome], hbeside⟩
    exact ⟨walk_append_eq_ok.2 ⟨here, hwalk, walk_cons_eq_ok.2 ⟨p, hstep'.1, rfl⟩⟩, hstep'.2⟩

theorem Unseen.symm (h : Unseen place paths t u) : Unseen place paths u t :=
  ⟨fun q hq => (h.outside q hq).symm, h.elsewhere, h.unmet.imp_left And.symm⟩

theorem Unseen.resolve (h : Unseen place paths t u) (hpath : path ∈ paths) {p : Place} (hr : t.resolve path = .ok p) :
    u.resolve path = .ok p ∧ t.get? p = u.get? p := by
  obtain ⟨hcheck, hwalk⟩ := resolve_eq_ok.1 hr
  have hp : p ≠ place := by
    rw [resolve_place hr]
    exact h.elsewhere path hpath
  have hunmet : ∀ first, first <+: Path.segments path → Path.reach first = place →
      t.get? place ≠ some .directory := by
    intro first hfirst hreach
    rcases h.unmet with hfiles | hway
    · exact hfiles.1
    · refine absurd ?_ (hway path hpath)
      rw [← hreach]
      exact Path.reach_mem_way hfirst
  obtain ⟨hwalk', hbeside⟩ := walk_of_outside h.outside hunmet hp hwalk
  exact ⟨resolve_eq_ok.2 ⟨hcheck, hwalk'⟩, h.outside p hbeside⟩

theorem Unseen.exists?_eq (h : Unseen place paths t u) (hpath : path ∈ paths) : t.exists? path = u.exists? path := by
  rw [Bool.eq_iff_iff, exists?_iff, exists?_iff]
  exact exists_congr fun p => ⟨fun hr => (h.resolve hpath hr).1, fun hr => (h.symm.resolve hpath hr).1⟩

theorem Unseen.read_eq (h : Unseen place paths t u) (hpath : path ∈ paths) (hexists : t.exists? path = true) :
    t.read path = u.read path := by
  obtain ⟨p, hr⟩ := exists?_iff.1 hexists
  obtain ⟨hr', hsame⟩ := h.resolve hpath hr
  rw [read_of_resolve hr, read_of_resolve hr', hsame]

/-! ## Kinds of changes -/

/-- A file that is made, removed or rewritten. -/
theorem Unseen.of_files (houtside : ∀ q ≠ place, t.get? q = u.get? q) (ht : t.get? place ≠ some .directory)
    (hu : u.get? place ≠ some .directory) (h : ∀ path ∈ paths, Path.place path ≠ place) : Unseen place paths t u :=
  ⟨fun q hq => houtside q fun hc => hq (hc ▸ List.prefix_refl _), h, .inl ⟨ht, hu⟩⟩

/-- A file that is put at a free place. -/
theorem Free.unseen (hfree : t.Free place) (content : Bytes) (h : ∀ path ∈ paths, Path.place path ≠ place) :
    Unseen place paths t (t.put place (.file content)) := by
  refine .of_files (fun q hq => ?_) hfree.2.2 ?_ h
  · rw [hfree.get?_put, if_neg hq]
  · rw [hfree.get?_put, if_pos rfl]
    simp

theorem mem_way_of_plain (hplain : Path.Plain path) (h : place ∈ Path.way path) : place <+: Path.place path := by
  obtain ⟨first, hfirst, rfl⟩ := List.mem_map.1 h
  have hbegins : (first.filter fun s => s ≠ "" ∧ s ≠ ".") <+: Path.names path :=
    ((List.mem_inits _ _).1 hfirst).filter _
  have hdots : ".." ∉ first.filter fun s => s ≠ "" ∧ s ≠ "." :=
    fun hc => hplain.not_mem_names (hbegins.subset hc)
  rw [hplain.place_eq, Path.reach, Path.foldl_descend hdots, List.nil_append]
  exact hbegins

/-- Whatever is put at a place, if plain paths lead neither there nor below. -/
theorem Unseen.of_apart (houtside : ∀ q, ¬ place <+: q → t.get? q = u.get? q)
    (h : ∀ path ∈ paths, Path.Plain path ∧ ¬ place <+: Path.place path) : Unseen place paths t u := by
  refine ⟨houtside, fun path hpath hc => ?_, .inr fun path hpath hway => ?_⟩
  · obtain ⟨-, hbelow⟩ := h path hpath
    exact hbelow (hc ▸ List.prefix_refl _)
  · obtain ⟨hplain, hbelow⟩ := h path hpath
    exact hbelow (mem_way_of_plain hplain hway)

end Unseen

end Attestation.FileTree
