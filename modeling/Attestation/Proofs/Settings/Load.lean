import Attestation.Proofs.FileTree.Walk
import Attestation.Proofs.Json.Compact
import Attestation.Proofs.Settings.Choices
import Attestation.Settings.Load

/-!
# Settings files override what they name

* `Configures tree path c` : at the path there is a JSON file that makes the choices and no others, in whatever layout;
* `load_of_configures` : loading it gives the settings of the choices;
* `written value levels group` : a way to write choices down, and `load_document` : settings written so are loaded back;
* `load_overrides` : what a file names replaces its default, and nothing else.
-/

namespace Attestation.Settings

/-- The file at the path makes the choices: as JSON whose root holds them. -/
structure Configures (tree : FileTree) (path : String) (c : Choices) : Prop where
  extension : Path.extension path = some "json"
  content : ∃ text root, tree.read path = .ok (Bytes.ofText text) ∧ Json.Document (.table root) text ∧
    Holds c.value .root root

theorem load_of_configures {tree : FileTree} {path : String} {c : Choices} (h : Configures tree path c) :
    load tree (some path) = .ok c.settings := by
  obtain ⟨hextension, text, root, hread, htext, hroot⟩ := h
  have hexists : tree.exists? path = true := FileTree.exists?_of_read hread
  have hformat : Format.json.root? text = some root := by
    rw [Format.root?, Json.read?_of_document htext]
  have hfile : ofFile? path (Bytes.ofText text) = some c.settings := by
    simp only [ofFile?, hextension, Bytes.text?_ofText, Option.bind_eq_bind, Option.bind_some, Format.ofExtension?,
      hformat, ofRoot?_of_holds hroot]
  simp [load, hexists, hread, hfile]

/-! ## Writing choices -/

namespace Group

def depth : Group → Nat
  | root => 2
  | devices => 1
  | _ => 0

theorem depth_lt {group sub : Group} (h : sub ∈ group.tables) : sub.depth < group.depth := by
  revert h
  cases group <;> cases sub <;> decide

/-- The names of the settings and of the tables in a table. -/
def names (group : Group) : List String := group.settings.map Key.name ++ group.tables.map name

theorem nodup_names (group : Group) : group.names.Nodup := by
  cases group <;> decide

theorem names_fold {group : Group} {name : String} (h : name ∈ group.names) : IsIdentifier name ∧ fold name = name := by
  revert h name
  cases group <;> simp [names, settings, tables, Group.name, Key.name, IsIdentifier, fold, isNameChar]

end Group

/-- The members of a group: the settings that have a value, and the tables with these parts in them. -/
def assembled (value : Key → Option String) (group : Group) (parts : Group → Members) : Members :=
  (group.settings.filterMap fun key => (value key).map fun s => (key.name, .text s)) ++
    group.tables.map fun sub => (sub.name, .table (parts sub))

section Assembled
variable {value : Key → Option String} {group : Group} {parts : Group → Members}

theorem names_settings_sublist (value : Key → Option String) (keys : List Key) :
    ((keys.filterMap fun key => (value key).map fun s => (key.name, Datum.text s)).map Prod.fst).Sublist
      (keys.map Key.name) := by
  induction keys with
  | nil => exact .slnil
  | cons key keys ih => cases h : value key <;> simp [h, ih]

theorem names_assembled_sublist : ((assembled value group parts).map Prod.fst).Sublist group.names := by
  rw [assembled, List.map_append, List.map_map]
  exact (names_settings_sublist value group.settings).append (.refl _)

theorem names_fold_assembled {m : String × Datum} (hm : m ∈ assembled value group parts) :
    IsIdentifier m.1 ∧ fold m.1 = m.1 :=
  Group.names_fold (names_assembled_sublist.subset (List.mem_map_of_mem hm))

theorem named_assembled {m : String × Datum} (hm : m ∈ assembled value group parts) :
    named (assembled value group parts) m.1 = [m.2] :=
  named_of_nodup (fun _ hx => (names_fold_assembled hx).2) (group.nodup_names.sublist names_assembled_sublist) hm

theorem named_assembled_of_none {key : Key} (hkey : key ∈ group.settings) (hnone : value key = none) :
    named (assembled value group parts) key.name = [] := by
  obtain ⟨hsettings, -, hapart⟩ := List.nodup_append.1 group.nodup_names
  refine named_eq_nil fun m hm heq => ?_
  rw [(names_fold_assembled hm).2] at heq
  rcases List.mem_append.1 hm with hm | hm
  · obtain ⟨other, hother, hvalue⟩ := List.mem_filterMap.1 hm
    obtain ⟨s, hs, rfl⟩ := Option.map_eq_some_iff.1 hvalue
    have hsame : other = key := List.inj_on_of_nodup_map hsettings hother hkey heq
    rw [hsame, hnone] at hs
    cases hs
  · obtain ⟨sub, hsub, rfl⟩ := List.mem_map.1 hm
    exact hapart _ (List.mem_map_of_mem hkey) _ (List.mem_map_of_mem hsub) heq.symm

theorem holds_assembled (h : ∀ sub ∈ group.tables, Holds value sub (parts sub)) :
    Holds value group (assembled value group parts) := by
  refine .table parts (fun m hm => (names_fold_assembled hm).1) (fun key hkey => ?_) (fun sub hsub => .inl ?_) h
  · cases hvalue : value key with
    | none => exact named_assembled_of_none hkey hvalue
    | some s =>
      have hm : (key.name, Datum.text s) ∈ assembled value group parts :=
        List.mem_append_left _ (List.mem_filterMap.2 ⟨key, hkey, by rw [hvalue, Option.map_some]⟩)
      exact named_assembled hm
  · have hm : (sub.name, Datum.table (parts sub)) ∈ assembled value group parts :=
      List.mem_append_right _ (List.mem_map_of_mem hsub)
    exact named_assembled hm

theorem tidy_assembled {levels : Nat}
    (h : ∀ sub ∈ group.tables, Json.Tidy (fun _ => True) levels (.table (parts sub))) :
    Json.Tidy (fun _ => True) (levels + 1) (.table (assembled value group parts)) := by
  refine .table (group.nodup_names.sublist names_assembled_sublist) (fun _ _ => trivial) fun m hm => ?_
  rcases List.mem_append.1 hm with hm | hm
  · obtain ⟨key, -, hvalue⟩ := List.mem_filterMap.1 hm
    obtain ⟨s, -, rfl⟩ := Option.map_eq_some_iff.1 hvalue
    exact .text trivial
  · obtain ⟨sub, hsub, rfl⟩ := List.mem_map.1 hm
    exact h sub hsub

end Assembled

/-- Everything that has a value in a group and in the tables of the next levels below it. -/
def written (value : Key → Option String) : (levels : Nat) → Group → Members
  | 0, group => assembled value group fun _ => []
  | levels + 1, group => assembled value group (written value levels)

theorem holds_written (value : Key → Option String) {levels : Nat} {group : Group} (h : group.depth ≤ levels) :
    Holds value group (written value levels group) := by
  induction levels generalizing group with
  | zero => exact holds_assembled fun sub hsub => absurd (Group.depth_lt hsub) (by omega)
  | succ levels ih => exact holds_assembled fun sub hsub => ih (by have hlt := Group.depth_lt hsub; omega)

theorem tidy_written (value : Key → Option String) (levels : Nat) (group : Group) :
    Json.Tidy (fun _ => True) (levels + 2) (.table (written value levels group)) := by
  induction levels generalizing group with
  | zero => exact tidy_assembled fun sub _ => .table List.nodup_nil (by simp) (by simp)
  | succ levels ih => exact tidy_assembled fun sub _ => ih sub

/-- The choices as compact text. -/
def Choices.document (c : Choices) : String := Json.compactText (.table (written c.value Group.root.depth .root))

/-- A file with the choices as compact text makes them. -/
theorem configures_document {tree : FileTree} {path : String} {c : Choices}
    (hextension : Path.extension path = some "json") (hread : tree.read path = .ok (Bytes.ofText c.document)) :
    Configures tree path c :=
  ⟨hextension, _, _, hread, Json.document_compactText (tidy_written c.value _ .root) (by decide),
    holds_written c.value (Nat.le_refl _)⟩

/-- The choice of every setting. -/
def Choices.all (settings : Settings) : Choices where
  value key := some (settings.get key)
  style_named _ hname := ⟨settings.digestStyle, Option.some.inj hname⟩

theorem settings_of_full {c : Choices} {full : Settings} (h : ∀ key, c.value key = some (full.get key)) :
    c.settings = full := by
  refine ext_get fun key => ?_
  rw [c.get_settings, h key, Option.getD_some]

/-- **Settings that were written down are loaded back.** -/
theorem load_document {tree : FileTree} {path : String} {settings : Settings}
    (hextension : Path.extension path = some "json")
    (hread : tree.read path = .ok (Bytes.ofText (Choices.all settings).document)) :
    load tree (some path) = .ok settings := by
  rw [load_of_configures (configures_document hextension hread), settings_of_full fun _ => rfl]

/-! ## Overriding -/

/-- **A file overrides exactly what it names.** Each setting that it names has the value given there, word for word,
and each other its default. So whatever file gives all settings their values is loaded as these settings, and a
setting is the same for any two files that agree about it. -/
theorem load_overrides {tree : FileTree} {path : String} {c : Choices} (h : Configures tree path c) :
    ∃ settings, load tree (some path) = .ok settings ∧
      (∀ key, settings.get key = (c.value key).getD (({} : Settings).get key)) ∧
      (∀ full : Settings, (∀ key, c.value key = some (full.get key)) → settings = full) ∧
      ∀ {other : FileTree} {otherPath : String} {d : Choices}, Configures other otherPath d →
        ∃ settings', load other (some otherPath) = .ok settings' ∧
          ∀ key, d.value key = c.value key → settings'.get key = settings.get key := by
  refine ⟨c.settings, load_of_configures h, c.get_settings, fun full => settings_of_full, fun {_ _ d} hother => ?_⟩
  refine ⟨d.settings, load_of_configures hother, fun key hkey => ?_⟩
  rw [d.get_settings, hkey, c.get_settings]

/-- The choice of a digest style and of one path. -/
def sampleChoices : Choices where
  value
    | .digestStyle => some "hex"
    | .ccelData => some "/\"CCEL\"\n"
    | _ => none
  style_named := by
    rintro _ ⟨rfl⟩
    exact ⟨.hex, rfl⟩

/-- The part for the table of the path, in other letters and with another member. -/
def samplePart : Members := [("Data", .text "/\"CCEL\"\n"), ("x-1", .text "table")]

def sampleRoot : Members := [("note", .text ""), ("CCEL", .table samplePart), ("digest_encoding", .text "hex")]

theorem holds_sampleRoot : Holds sampleChoices.value .root sampleRoot := by
  have hccel : Holds sampleChoices.value .ccel samplePart := by
    refine .table (fun _ => []) (by simp [samplePart, IsIdentifier, isNameChar]) ?_ (List.forall_mem_nil _)
      (List.forall_mem_nil _)
    simp [samplePart, named, fold, Group.settings, Key.name, sampleChoices]
  have hdevices : Holds sampleChoices.value .devices [] := by
    refine holds_nil (List.forall_mem_nil _) fun sub hsub => ?_
    simp only [Group.tables, List.mem_cons, List.not_mem_nil, or_false] at hsub
    rcases hsub with rfl | rfl | rfl | rfl <;> exact holds_nil (by decide) (List.forall_mem_nil _)
  refine .table (fun sub => if sub = .ccel then samplePart else []) ?_ ?_ ?_ ?_
  · simp [sampleRoot, IsIdentifier, isNameChar]
  · simp [sampleRoot, named, fold, Group.settings, Key.name, sampleChoices]
  · simp [sampleRoot, named, fold, Group.tables, Group.name]
  · exact List.forall_mem_cons.2 ⟨hccel, List.forall_mem_singleton.2 hdevices⟩

/-- A tree with a file of that content. -/
def sampleTree : FileTree :=
  FileTree.empty.put ["c.json"] (.file (Bytes.ofText (Json.compactText (.table sampleRoot))))

theorem load_overrides_sample :
    load sampleTree (some "/c.json") = .ok { digestStyle := .hex, ccel := { data := "/\"CCEL\"\n" } } := by
  have hread : sampleTree.read "/c.json" = .ok (Bytes.ofText (Json.compactText (.table sampleRoot))) := by
    decide +kernel
  have hpart : Json.Tidy (fun _ => True) 1 (.table samplePart) :=
    .table (by decide) (by simp) (by simp [samplePart, Json.Tidy.text])
  have hroot : Json.Tidy (fun _ => True) 2 (.table sampleRoot) :=
    .table (by decide) (by simp) (by simp [sampleRoot, Json.Tidy.text, hpart])
  have hdocument : Json.Document (.table sampleRoot) (Json.compactText (.table sampleRoot)) :=
    Json.document_compactText hroot (by decide)
  obtain ⟨settings, hload, hget, -⟩ := load_overrides ⟨by decide, _, _, hread, hdocument, holds_sampleRoot⟩
  rw [hload]
  refine congrArg Except.ok (ext_get fun key => (hget key).trans ?_)
  cases key <;> rfl

end Attestation.Settings
