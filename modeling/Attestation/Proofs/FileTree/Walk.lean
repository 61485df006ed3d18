import Mathlib
import Attestation.FileTree.Basic

/-!
# Walking through a file tree

* `get?_above` : above everything that stands in a tree there are directories;
* `Free.get?_put`, `put_put` : a place after something was put there, once and twice;
* `step_cases`, `walk_append`, `walk_place` : what one segment does, what several do, and where they lead;
* `resolve_eq_ok`, `read_eq_ok` : the same for paths;
* `Keeps t u` : the directories of `t` are directories of `u`, and no place of `t` is free in `u`;
  then every walk of `t` is one of `u` (`Keeps.walk`, `Keeps.resolve`).
-/

namespace Attestation.FileTree

/-! ## What stands where -/

section Places
variable {t : FileTree}

theorem get?_dropLast {p : Place} (hp : p ≠ []) (h : (t.get? p).isSome) : t.get? p.dropLast = some .directory := by
  rw [get?, lookup_eq_find? hp, Option.isSome_map, List.find?_isSome] at h
  obtain ⟨e, he, hep⟩ := h
  have hplace : e.1 = p := by simpa using hep
  rw [← hplace]
  exact (t.standing e he).2

theorem get?_above {p q : Place} (hpq : p <+: q) (hne : p ≠ q) (h : (t.get? q).isSome) :
    t.get? p = some .directory := by
  obtain ⟨s, rfl⟩ := hpq
  have hs : s ≠ [] := by
    rintro rfl
    exact hne (List.append_nil p).symm
  induction s using List.reverseRecOn with
  | nil => exact absurd rfl hs
  | append_singleton s name ih =>
    have hparent := get?_dropLast (by simp) h
    rw [← List.append_assoc, List.dropLast_concat] at hparent
    by_cases hnil : s = []
    · rwa [hnil, List.append_nil] at hparent
    · exact ih (by simpa using hnil) (by rw [hparent]; rfl) hnil

/-! ## What was put -/

/-- Something may be put at a place in a directory, unless a directory is there. -/
def Free (t : FileTree) (p : Place) : Prop :=
  p ≠ [] ∧ t.get? p.dropLast = some .directory ∧ t.get? p ≠ some .directory

theorem Free.get?_put {p : Place} (h : t.Free p) (entry : Entry) (q : Place) :
    (t.put p entry).get? q = if q = p then some entry else t.get? q :=
  FileTree.get?_put entry h.1 h.2.1 h.2.2 q

theorem Free.entries_put {p : Place} (h : t.Free p) (entry : Entry) :
    (t.put p entry).entries = (p, entry) :: t.entries.filter fun e => e.1 ≠ p := by
  unfold Free at h
  rw [put, dif_pos h]

theorem Free.put_file {p : Place} (h : t.Free p) (content : Bytes) : (t.put p (.file content)).Free p := by
  have hparent : p.dropLast ≠ p := by
    intro hc
    have hlength := congrArg List.length hc
    have hpos := List.length_pos_iff.2 h.1
    rw [List.length_dropLast] at hlength
    omega
  refine ⟨h.1, ?_, ?_⟩
  · rw [h.get?_put, if_neg hparent]
    exact h.2.1
  · rw [h.get?_put, if_pos rfl]
    simp

theorem ext_entries {t u : FileTree} (h : t.entries = u.entries) : t = u := by
  cases t
  cases u
  cases h
  rfl

/-- What is put last counts. -/
theorem put_put {p : Place} (h : t.Free p) (content : Bytes) (entry : Entry) :
    (t.put p (.file content)).put p entry = t.put p entry := by
  apply ext_entries
  rw [(h.put_file content).entries_put, h.entries_put, h.entries_put, List.filter_cons_of_neg (by simp),
    List.filter_filter]
  simp

end Places

/-! ## Steps and walks -/

section Walks
variable {t : FileTree}

/-- A segment that leads down from a directory. -/
def IsName (segment : String) : Prop := segment ≠ "" ∧ segment ≠ "." ∧ segment ≠ ".."

/-- What a step can do: stay, go up, or go down to something that stands there. -/
theorem step_cases {here next : Place} {s : String} (h : t.step here s = .ok next) :
    t.get? here = some .directory ∧
      ((s = "" ∨ s = ".") ∧ next = here ∨ s = ".." ∧ next = here.dropLast ∨
        IsName s ∧ s.utf8ByteSize ≤ maxName ∧ (t.get? (here ++ [s])).isSome ∧ next = here ++ [s]) := by
  unfold step at h
  split at h
  · next hdir =>
    refine ⟨hdir, ?_⟩
    split at h
    · next hstay =>
      cases h
      exact .inl ⟨hstay, rfl⟩
    · next hstay =>
      split at h
      · next hup =>
        cases h
        exact .inr (.inl ⟨hup, rfl⟩)
      · next hup =>
        unfold child at h
        split at h
        · cases h
        · next hlong =>
          split at h
          · next hsome =>
            cases h
            exact .inr (.inr ⟨⟨fun hs => hstay (.inl hs), fun hs => hstay (.inr hs), hup⟩, Nat.not_lt.1 hlong,
              hsome, rfl⟩)
          · cases h
  · cases h

theorem step_stay {here : Place} {s : String} (hdir : t.get? here = some .directory) (hs : s = "" ∨ s = ".") :
    t.step here s = .ok here := by
  simp only [step, hdir, if_pos hs]

theorem step_up {here : Place} (hdir : t.get? here = some .directory) : t.step here ".." = .ok here.dropLast := by
  simp [step, hdir]

theorem step_name {here : Place} {s : String} (hdir : t.get? here = some .directory) (hs : IsName s) :
    t.step here s = t.child here s := by
  obtain ⟨hempty, hdot, hdots⟩ := hs
  simp [step, hdir, hempty, hdot, hdots]

theorem step_file {here : Place} {s : String} (hdir : t.get? here ≠ some .directory) :
    t.step here s = .error .notADirectory := by
  unfold step
  split
  · next h => exact absurd h hdir
  · rfl

theorem child_eq {here : Place} {s : String} (hlong : s.utf8ByteSize ≤ maxName) :
    t.child here s = if (t.get? (here ++ [s])).isSome then .ok (here ++ [s]) else .error .notFound := by
  rw [child, if_neg (Nat.not_lt.2 hlong)]

theorem child_long {here : Place} {s : String} (hlong : maxName < s.utf8ByteSize) :
    t.child here s = .error .nameTooLong := by
  rw [child, if_pos hlong]

theorem walk_cons (t : FileTree) (here : Place) (s : String) (rest : List String) :
    t.walk here (s :: rest) = (t.step here s).bind fun next => t.walk next rest := by
  rw [walk]
  cases t.step here s <;> rfl

theorem walk_append (t : FileTree) (here : Place) (a b : List String) :
    t.walk here (a ++ b) = (t.walk here a).bind fun next => t.walk next b := by
  induction a generalizing here with
  | nil => rfl
  | cons s rest ih =>
    rw [List.cons_append, walk_cons, walk_cons]
    cases t.step here s with
    | error e => rfl
    | ok next => exact ih next

theorem walk_append_eq_ok {here p : Place} {a b : List String} :
    t.walk here (a ++ b) = .ok p ↔ ∃ mid, t.walk here a = .ok mid ∧ t.walk mid b = .ok p := by
  rw [walk_append]
  cases t.walk here a <;> simp [Except.bind]

theorem walk_cons_eq_ok {here p : Place} {s : String} {rest : List String} :
    t.walk here (s :: rest) = .ok p ↔ ∃ next, t.step here s = .ok next ∧ t.walk next rest = .ok p := by
  rw [walk_cons]
  cases t.step here s <;> simp [Except.bind]

/-- A walk from where something stands ends where something stands. -/
theorem walk_isSome {here p : Place} {segments : List String} (hhere : (t.get? here).isSome)
    (h : t.walk here segments = .ok p) : (t.get? p).isSome := by
  induction segments generalizing here with
  | nil =>
    cases h
    exact hhere
  | cons s rest ih =>
    obtain ⟨next, hstep, hrest⟩ := walk_cons_eq_ok.1 h
    obtain ⟨hdir, ⟨-, rfl⟩ | ⟨-, rfl⟩ | ⟨-, -, hsome, rfl⟩⟩ := step_cases hstep
    · exact ih hhere hrest
    · refine ih ?_ hrest
      by_cases hnil : here = []
      · rw [hnil]
        rfl
      · rw [get?_dropLast hnil hhere]
        rfl
    · exact ih hsome hrest

/-- Empty segments at the end of a walk need a directory and stay there. -/
theorem walk_replicate {here : Place} (hdir : t.get? here = some .directory) (n : Nat) :
    t.walk here (List.replicate n "") = .ok here := by
  induction n with
  | zero => rfl
  | succ n ih => rw [List.replicate_succ, walk_cons, step_stay hdir (.inl rfl), Except.bind, ih]

/-- Where a walk leads is written in its segments. -/
theorem walk_place {here p : Place} {segments : List String} (h : t.walk here segments = .ok p) :
    p = (segments.filter fun s => s ≠ "" ∧ s ≠ ".").foldl Path.descend here := by
  induction segments generalizing here with
  | nil =>
    cases h
    rfl
  | cons s rest ih =>
    obtain ⟨next, hstep, hrest⟩ := walk_cons_eq_ok.1 h
    rw [ih hrest]
    obtain ⟨-, ⟨rfl | rfl, rfl⟩ | ⟨rfl, rfl⟩ | ⟨⟨hempty, hdot, hdots⟩, -, -, rfl⟩⟩ := step_cases hstep
    · rw [List.filter_cons_of_neg (by simp)]
    · rw [List.filter_cons_of_neg (by simp)]
    · rw [List.filter_cons_of_pos (by simp), List.foldl_cons, Path.descend, if_pos rfl]
    · rw [List.filter_cons_of_pos (by simp [hempty, hdot]), List.foldl_cons, Path.descend, if_neg hdots]

end Walks

/-! ## Paths -/

section Paths
variable {t : FileTree}

theorem resolve_eq_ok {path : String} {p : Place} :
    t.resolve path = .ok p ↔ checkPath path = .ok () ∧ t.walk [] (Path.segments path) = .ok p := by
  unfold resolve
  cases checkPath path <;> simp [Bind.bind, Except.bind]

theorem resolve_place {path : String} {p : Place} (h : t.resolve path = .ok p) : p = Path.place path :=
  walk_place (resolve_eq_ok.1 h).2

theorem exists?_iff {path : String} : t.exists? path = true ↔ ∃ p, t.resolve path = .ok p := by
  unfold exists?
  cases t.resolve path <;> simp

theorem isDirectory_iff {path : String} :
    t.isDirectory path = true ↔ ∃ p, t.resolve path = .ok p ∧ t.get? p = some .directory := by
  unfold isDirectory
  cases t.resolve path <;> simp

theorem read_of_resolve {path : String} {p : Place} (h : t.resolve path = .ok p) :
    t.read path = match t.get? p with
      | some (.file content) => .ok content
      | some .directory => .error .isADirectory
      | none => .error .notFound := by
  unfold read
  rw [h]
  rfl

theorem read_of_error {path : String} {e : OsError} (h : t.resolve path = .error e) : t.read path = .error e := by
  unfold read
  rw [h]
  rfl

theorem read_eq_ok {path : String} {content : Bytes} :
    t.read path = .ok content ↔ ∃ p, t.resolve path = .ok p ∧ t.get? p = some (.file content) := by
  cases h : t.resolve path with
  | error e => simp [read_of_error h]
  | ok p =>
    rw [read_of_resolve h]
    cases hp : t.get? p with
    | none => simp [hp]
    | some entry => cases entry <;> simp [hp]

theorem exists?_of_read {path : String} {content : Bytes} (h : t.read path = .ok content) :
    t.exists? path = true := by
  obtain ⟨p, hresolve, -⟩ := read_eq_ok.1 h
  exact exists?_iff.2 ⟨p, hresolve⟩

end Paths

/-! ## Trees that keep a tree -/

/-- Every directory of `t` is one of `u`, and where something stands in `t` there something stands in `u`. -/
structure Keeps (t u : FileTree) : Prop where
  directory : ∀ p, t.get? p = some .directory → u.get? p = some .directory
  occupied : ∀ p, (t.get? p).isSome → (u.get? p).isSome

section Keeping
variable {t u : FileTree}

theorem Keeps.step (h : Keeps t u) {here next : Place} {s : String} (hs : t.step here s = .ok next) :
    u.step here s = .ok next := by
  obtain ⟨hdir, ⟨hstay, rfl⟩ | ⟨rfl, rfl⟩ | ⟨hname, hlong, hsome, rfl⟩⟩ := step_cases hs
  · exact step_stay (h.directory _ hdir) hstay
  · exact step_up (h.directory _ hdir)
  · rw [step_name (h.directory _ hdir) hname, child_eq hlong, if_pos (h.occupied _ hsome)]

theorem Keeps.walk (h : Keeps t u) {here p : Place} {segments : List String} (hw : t.walk here segments = .ok p) :
    u.walk here segments = .ok p := by
  induction segments generalizing here with
  | nil => exact hw
  | cons s rest ih =>
    obtain ⟨next, hstep, hrest⟩ := walk_cons_eq_ok.1 hw
    exact walk_cons_eq_ok.2 ⟨next, h.step hstep, ih hrest⟩

theorem Keeps.resolve (h : Keeps t u) {path : String} {p : Place} (hr : t.resolve path = .ok p) :
    u.resolve path = .ok p := by
  obtain ⟨hcheck, hwalk⟩ := resolve_eq_ok.1 hr
  exact resolve_eq_ok.2 ⟨hcheck, h.walk hwalk⟩

theorem Keeps.isDirectory (h : Keeps t u) {path : String} (hd : t.isDirectory path = true) :
    u.isDirectory path = true := by
  obtain ⟨p, hr, hp⟩ := isDirectory_iff.1 hd
  exact isDirectory_iff.2 ⟨p, h.resolve hr, h.directory p hp⟩

/-- A tree keeps what it had when something is put where no directory is. -/
theorem Free.keeps {p : Place} (h : t.Free p) (entry : Entry) : Keeps t (t.put p entry) := by
  constructor
  · intro q hq
    rw [h.get?_put, if_neg]
    · exact hq
    · rintro rfl
      exact h.2.2 hq
  · intro q hq
    rw [h.get?_put]
    split
    · rfl
    · exact hq

end Keeping
end Attestation.FileTree
