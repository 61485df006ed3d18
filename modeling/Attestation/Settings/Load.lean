import Attestation.Json.Reader
import Attestation.Service.Request
import Attestation.Settings.Interpret
import Attestation.Toml.Document

/-!
# Loading settings

Without a settings file every setting has its default. The format of a file follows from its extension, and its root
has to be a table.
-/

namespace Attestation.Settings

/-- The format of a settings file. -/
inductive Format where
  | json
  | toml
  deriving DecidableEq, Repr

def Format.ofExtension? : String → Option Format
  | "json" => some .json
  | "toml" => some .toml
  | _ => none

def Format.root? (format : Format) (text : String) : Option Members :=
  match format with
  | .toml => Toml.read? text
  | .json =>
    match Json.read? text with
    | some (.table root) => some root
    | _ => none

/-- The settings of a file at `path` with these bytes. -/
def ofFile? (path : String) (content : Bytes) : Option Settings := do
  let format ← Format.ofExtension? (← Path.extension path)
  let text ← Bytes.text? content
  ofRoot? (← format.root? text)

def load (tree : FileTree) (path? : Option String) : Except ServiceFault Settings :=
  match path? with
  | none => .ok {}
  | some path =>
    if !tree.exists? path then .error (.settingsNotFound path)
    else
      match tree.read path with
      | .error _ => .error .invalidSettings
      | .ok content =>
        match ofFile? path content with
        | some settings => .ok settings
        | none => .error .invalidSettings

end Attestation.Settings
