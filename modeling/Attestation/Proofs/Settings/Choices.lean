import Attestation.Proofs.Settings.Layer
import Attestation.Settings.Interpret

/-!
# Settings one by one

* `Key` : the settings, each by itself, with `Settings.get` for their values, which say all (`Settings.ext_get`);
* `Group` : the tables of a settings file, with the settings and the further tables in them;
* `Choices` : a value for some of the settings, and `Choices.settings` the defaults with these in their places;
* `Holds value group ms` : the members say of the settings of a group and of those below it which are chosen and how, in
  any order and among any others;
* `ofRoot?_of_holds` : a file whose root holds the choices stands for their settings.
-/

namespace Attestation

theorem DigestStyle.ofName?_name (style : DigestStyle) : ofName? style.name = some style := by
  cases style <;> decide

namespace Settings

/-! ## Settings by their keys -/

inductive Key where
  | cacheDirectory
  | cacheFile
  | digestStyle
  | ccelTable
  | ccelTableMount
  | ccelData
  | ccelDataMount
  | tdxDeprecated
  | tdxV1_0
  | tdxV1_5
  | sevGuest
  | sevLegacy
  | sgxDevice
  | tpmDevice
  | tpmEventLog
  deriving DecidableEq, Repr

/-- The name of a setting in its table. -/
def Key.name : Key → String
  | cacheDirectory => "eventlog_cache_dir"
  | cacheFile => "eventlog_cache_file"
  | digestStyle => "digest_encoding"
  | ccelTable => "table"
  | ccelTableMount => "table_mount"
  | ccelData => "data"
  | ccelDataMount => "data_mount"
  | tdxDeprecated => "deprecated"
  | tdxV1_0 => "v1_0"
  | tdxV1_5 => "v1_5"
  | sevGuest => "guest"
  | sevLegacy => "legacy"
  | sgxDevice => "device"
  | tpmDevice => "device"
  | tpmEventLog => "eventlog"

/-- The value of a setting; a digest style has its name. -/
def get (settings : Settings) : Key → String
  | .cacheDirectory => settings.cacheDirectory
  | .cacheFile => settings.cacheFile
  | .digestStyle => settings.digestStyle.name
  | .ccelTable => settings.ccel.table
  | .ccelTableMount => settings.ccel.tableMount
  | .ccelData => settings.ccel.data
  | .ccelDataMount => settings.ccel.dataMount
  | .tdxDeprecated => settings.devices.tdx.deprecated
  | .tdxV1_0 => settings.devices.tdx.v1_0
  | .tdxV1_5 => settings.devices.tdx.v1_5
  | .sevGuest => settings.devices.sev.guest
  | .sevLegacy => settings.devices.sev.legacy
  | .sgxDevice => settings.devices.sgx.device
  | .tpmDevice => settings.devices.tpm.device
  | .tpmEventLog => settings.devices.tpm.eventLog

/-- The settings with these values. -/
def ofValues (value : Key → String) (style : DigestStyle) : Settings where
  cacheDirectory := value .cacheDirectory
  cacheFile := value .cacheFile
  digestStyle := style
  ccel :=
    { table := value .ccelTable
      tableMount := value .ccelTableMount
      data := value .ccelData
      dataMount := value .ccelDataMount }
  devices :=
    { tdx := { deprecated := value .tdxDeprecated, v1_0 := value .tdxV1_0, v1_5 := value .tdxV1_5 }
      sev := { guest := value .sevGuest, legacy := value .sevLegacy }
      sgx := { device := value .sgxDevice }
      tpm := { device := value .tpmDevice, eventLog := value .tpmEventLog } }

theorem get_ofValues {value : Key → String} {style : DigestStyle} (hstyle : style.name = value .digestStyle)
    (key : Key) : (ofValues value style).get key = value key := by
  cases key with
  | digestStyle => exact hstyle
  | _ => rfl

theorem ofValues_get (settings : Settings) : ofValues settings.get settings.digestStyle = settings := rfl

/-- The values of all settings say everything. -/
theorem ext_get {s t : Settings} (h : ∀ key, s.get key = t.get key) : s = t := by
  have hname : s.digestStyle.name = t.digestStyle.name := h .digestStyle
  have hstyle : s.digestStyle = t.digestStyle := by
    rw [← Option.some_inj, ← DigestStyle.ofName?_name, hname, DigestStyle.ofName?_name]
  rw [← ofValues_get s, ← ofValues_get t, funext h, hstyle]

/-! ## Choices -/

/-- A value for some of the settings; that of the digest style is one of its names. -/
structure Choices where
  value : Key → Option String
  style_named : ∀ name ∈ value .digestStyle, ∃ style : DigestStyle, style.name = name

namespace Choices
variable (c : Choices)

/-- The value of a setting: that which is chosen, or else its default. -/
def chosen (key : Key) : String := (c.value key).getD (({} : Settings).get key)

def style : DigestStyle := (DigestStyle.ofName? (c.chosen .digestStyle)).getD .byteArray

/-- The defaults with the choices in their places. -/
def settings : Settings := ofValues c.chosen c.style

theorem name_style : c.style.name = c.chosen .digestStyle := by
  obtain ⟨style, hstyle⟩ : ∃ style : DigestStyle, style.name = c.chosen .digestStyle := by
    unfold chosen
    cases h : c.value .digestStyle with
    | none => exact ⟨.byteArray, rfl⟩
    | some name => exact c.style_named name h
  rw [Choices.style, ← hstyle, DigestStyle.ofName?_name, Option.getD_some]

/-- **What is chosen replaces its default, and nothing else.** -/
theorem get_settings (key : Key) : c.settings.get key = (c.value key).getD (({} : Settings).get key) :=
  get_ofValues c.name_style key

end Choices

/-! ## Groups -/

/-- The tables of a settings file. -/
inductive Group where
  | root
  | ccel
  | devices
  | tdx
  | sev
  | sgx
  | tpm
  deriving DecidableEq, Repr

namespace Group

/-- The name of a table in that around it; the root has none. -/
def name : Group → String
  | root => ""
  | ccel => "ccel"
  | devices => "devices"
  | tdx => "tdx"
  | sev => "sev"
  | sgx => "sgx"
  | tpm => "tpm"

/-- The settings of a table itself. -/
def settings : Group → List Key
  | root => [.cacheDirectory, .cacheFile, .digestStyle]
  | ccel => [.ccelTable, .ccelTableMount, .ccelData, .ccelDataMount]
  | devices => []
  | tdx => [.tdxDeprecated, .tdxV1_0, .tdxV1_5]
  | sev => [.sevGuest, .sevLegacy]
  | sgx => [.sgxDevice]
  | tpm => [.tpmDevice, .tpmEventLog]

/-- The tables in a table. -/
def tables : Group → List Group
  | root => [ccel, devices]
  | devices => [tdx, sev, sgx, tpm]
  | _ => []

end Group

/-- The members give the settings of the group that have a value just this value, those of its tables in these, and
the others none. An absent table is as good as an empty one. -/
inductive Holds (value : Key → Option String) : Group → Members → Prop where
  | table {group : Group} {ms : Members} (parts : Group → Members)
      (identifiers : ∀ m ∈ ms, IsIdentifier m.1)
      (settings : ∀ key ∈ group.settings, named ms key.name = (value key).toList.map Datum.text)
      (tables : ∀ sub ∈ group.tables,
        named ms sub.name = [.table (parts sub)] ∨ named ms sub.name = [] ∧ parts sub = [])
      (parts_hold : ∀ sub ∈ group.tables, Holds value sub (parts sub)) : Holds value group ms

theorem holds_nil {value : Key → Option String} {group : Group} (hnone : ∀ key ∈ group.settings, value key = none)
    (h : ∀ sub ∈ group.tables, Holds value sub []) : Holds value group [] := by
  refine .table (fun _ => []) (List.forall_mem_nil _) (fun key hkey => ?_) (fun _ _ => .inr ⟨rfl, rfl⟩) h
  rw [hnone key hkey]
  rfl

/-! ## The meaning of a layer -/

section Parts
variable {α : Type} {acc ms : Members} {group : Group}

theorem part_layAll (read : Datum → Option α) (position : Nat) (name : String) (default : α) (acc ms : Members) :
    part read position name default (layAll (.table acc) ms) =
      ((named ms name).foldl (fun old v => some (laidOver old v)) (acc.get? name)).elim (some default) read := by
  rw [layAll_table, part, get?_layAll]
  rfl

theorem part_text {value : Key → Option String} (h : Holds value group ms) (position : Nat) (key : Key)
    (hkey : key ∈ group.settings) {default : String}
    (hacc : (acc.get? key.name).elim (some default) textOf? = some default) :
    part textOf? position key.name default (layAll (.table acc) ms) = some ((value key).getD default) := by
  obtain ⟨parts, -, hsettings, -, -⟩ := h
  rw [part_layAll, hsettings key hkey]
  cases value key with
  | none => exact hacc
  | some s => rfl

theorem styleOf?_name (style : DigestStyle) : styleOf? (.text style.name) = some style := by
  cases style <;> simp [styleOf?, DigestStyle.name, fold, DigestStyle.ofName?]

theorem part_style {c : Choices} (h : Holds c.value group ms) (position : Nat) (hkey : .digestStyle ∈ group.settings)
    (hacc : acc.get? Key.digestStyle.name = none) :
    part styleOf? position Key.digestStyle.name .byteArray (layAll (.table acc) ms) = some c.style := by
  have hname := c.name_style
  obtain ⟨parts, -, hsettings, -, -⟩ := h
  rw [part_layAll, hsettings _ hkey, hacc, ← DigestStyle.ofName?_name c.style, hname, Choices.chosen]
  cases hvalue : c.value .digestStyle with
  | none => exact (DigestStyle.ofName?_name .byteArray).symm
  | some name =>
    obtain ⟨style, rfl⟩ := c.style_named name hvalue
    exact (styleOf?_name style).trans (DigestStyle.ofName?_name style).symm

/-- A group that is absent has its own default, which is that of an empty one. -/
theorem part_table {read : Datum → Option α} {incoming : Members} {x : α}
    (hread : read (layAll (.table []) incoming) = some x) (position : Nat) {name : String}
    (hnamed : named ms name = [.table incoming] ∨ named ms name = [] ∧ incoming = []) (hacc : acc.get? name = none)
    {default : α} (hempty : read (.table []) = some default) :
    part read position name default (layAll (.table acc) ms) = some x := by
  rw [part_layAll, hacc]
  rcases hnamed with h | ⟨h, rfl⟩
  · rw [h]
    exact hread
  · rw [h]
    exact hempty.symm.trans hread

end Parts

section Groups
variable {c : Choices} {ms : Members}

theorem ccelOf?_of_holds (h : Holds c.value .ccel ms) : ccelOf? (layAll (.table []) ms) = some c.settings.ccel := by
  refine Option.bind_eq_some_iff.2 ⟨_, part_text h 0 .ccelTable (by decide) rfl, ?_⟩
  refine Option.bind_eq_some_iff.2 ⟨_, part_text h 1 .ccelTableMount (by decide) rfl, ?_⟩
  refine Option.bind_eq_some_iff.2 ⟨_, part_text h 2 .ccelData (by decide) rfl, ?_⟩
  refine Option.bind_eq_some_iff.2 ⟨_, part_text h 3 .ccelDataMount (by decide) rfl, ?_⟩
  rfl

theorem tdxOf?_of_holds (h : Holds c.value .tdx ms) :
    tdxOf? (layAll (.table []) ms) = some c.settings.devices.tdx := by
  refine Option.bind_eq_some_iff.2 ⟨_, part_text h 0 .tdxDeprecated (by decide) rfl, ?_⟩
  refine Option.bind_eq_some_iff.2 ⟨_, part_text h 1 .tdxV1_0 (by decide) rfl, ?_⟩
  refine Option.bind_eq_some_iff.2 ⟨_, part_text h 2 .tdxV1_5 (by decide) rfl, ?_⟩
  rfl

theorem sevOf?_of_holds (h : Holds c.value .sev ms) :
    sevOf? (layAll (.table []) ms) = some c.settings.devices.sev := by
  refine Option.bind_eq_some_iff.2 ⟨_, part_text h 0 .sevGuest (by decide) rfl, ?_⟩
  refine Option.bind_eq_some_iff.2 ⟨_, part_text h 1 .sevLegacy (by decide) rfl, ?_⟩
  rfl

theorem sgxOf?_of_holds (h : Holds c.value .sgx ms) :
    sgxOf? (layAll (.table []) ms) = some c.settings.devices.sgx := by
  refine Option.bind_eq_some_iff.2 ⟨_, part_text h 0 .sgxDevice (by decide) rfl, ?_⟩
  rfl

theorem tpmOf?_of_holds (h : Holds c.value .tpm ms) :
    tpmOf? (layAll (.table []) ms) = some c.settings.devices.tpm := by
  refine Option.bind_eq_some_iff.2 ⟨_, part_text h 0 .tpmDevice (by decide) rfl, ?_⟩
  refine Option.bind_eq_some_iff.2 ⟨_, part_text h 1 .tpmEventLog (by decide) rfl, ?_⟩
  rfl

theorem devicesOf?_of_holds (h : Holds c.value .devices ms) :
    devicesOf? (layAll (.table []) ms) = some c.settings.devices := by
  obtain ⟨parts, -, -, htables, hparts⟩ := h
  have htdx := tdxOf?_of_holds (hparts .tdx (by decide))
  have hsev := sevOf?_of_holds (hparts .sev (by decide))
  have hsgx := sgxOf?_of_holds (hparts .sgx (by decide))
  have htpm := tpmOf?_of_holds (hparts .tpm (by decide))
  refine Option.bind_eq_some_iff.2 ⟨_, part_table htdx 0 (htables .tdx (by decide)) rfl rfl, ?_⟩
  refine Option.bind_eq_some_iff.2 ⟨_, part_table hsev 1 (htables .sev (by decide)) rfl rfl, ?_⟩
  refine Option.bind_eq_some_iff.2 ⟨_, part_table hsgx 2 (htables .sgx (by decide)) rfl rfl, ?_⟩
  refine Option.bind_eq_some_iff.2 ⟨_, part_table htpm 3 (htables .tpm (by decide)) rfl rfl, ?_⟩
  rfl

/-- **A root that holds the choices stands for their settings.** -/
theorem ofRoot?_of_holds (h : Holds c.value .root ms) : ofRoot? ms = some c.settings := by
  have hroot := h
  obtain ⟨parts, hidentifiers, -, htables, hparts⟩ := hroot
  have hccel := ccelOf?_of_holds (hparts .ccel (by decide))
  have hdevices := devicesOf?_of_holds (hparts .devices (by decide))
  rw [ofRoot?, layFile_eq_layAll _ hidentifiers]
  refine Option.bind_eq_some_iff.2 ⟨_, part_text h 0 .cacheDirectory (by decide) rfl, ?_⟩
  refine Option.bind_eq_some_iff.2 ⟨_, part_text h 1 .cacheFile (by decide) rfl, ?_⟩
  refine Option.bind_eq_some_iff.2 ⟨_, part_style h 2 (by decide) rfl, ?_⟩
  refine Option.bind_eq_some_iff.2 ⟨_, part_table hccel 3 (htables .ccel (by decide)) rfl rfl, ?_⟩
  refine Option.bind_eq_some_iff.2 ⟨_, part_table hdevices 4 (htables .devices (by decide)) rfl rfl, ?_⟩
  rfl

end Groups

end Settings

end Attestation
