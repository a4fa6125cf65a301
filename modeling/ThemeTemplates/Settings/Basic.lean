import ThemeTemplates.Engine
import ThemeTemplates.Files.Loader
import ThemeTemplates.Settings.Environment
import ThemeTemplates.Settings.Toml

/-!
# Settings

Where templates lie and how they are treated. The environment goes before the configuration file,
and that before the defaults, key by key. Unknown sections and keys are passed over; a value of the
wrong type is an error.
-/

namespace ThemeTemplates

structure Settings where
  templatesDirectory : String := "templates"
  /-- The directories searched after it, in order. -/
  fallbackDirectories : List String := []
  extension : String := ".blade.html"
  developmentMode : Bool := false
deriving DecidableEq, Repr

mutual
/-- Lays one value over another: records key by key, anything else as a whole. -/
def Data.layOver (layer : Data) (under : Option Data) : Data :=
  match layer, under with
  | .record fields, some (.record below) => .record (layFields fields below)
  | layer, _ => layer

def Data.layFields : List (String × Data) → List (String × Data) → List (String × Data)
  | [], below => below
  | (key, value) :: rest, below =>
    layFields rest (Fields.insert below key (value.layOver (Fields.find? below key)))
end

namespace Settings

/-- The value at a key of a section. A section may also be a list of its values in order. -/
private def sectionValue (names : List String) (key : String) :
    Option Data → Except Failure (Option Data)
  | none => .ok none
  | some (.record fields) => .ok (Fields.find? fields key)
  | some (.list items) => .ok (names.idxOf? key |>.bind fun i => items[i]?)
  | some _ => .error (.configuration "expected a table")

private def textValue (default : String) : Option Data → Except Failure String
  | none => .ok default
  | some (.text s) => .ok s
  | some _ => .error (.configuration "expected a string")

private def textsValue (default : List String) : Option Data → Except Failure (List String)
  | none => .ok default
  | some (.list items) => items.mapM fun item => textValue "" (some item)
  | some _ => .error (.configuration "expected a sequence")

private def flagValue (default : Bool) : Option Data → Except Failure Bool
  | none => .ok default
  | some (.bool b) => .ok b
  | some _ => .error (.configuration "expected a boolean")

def ofData (data : Data) : Except Failure Settings := do
  let defaults : Settings := {}
  let theme := sectionValue ["templates_directory", "fallback_directories"]
  let blade := sectionValue ["file_extension", "development_mode"]
  let templatesDirectory ← textValue defaults.templatesDirectory
    (← theme "templates_directory" (data.field? "theme"))
  let fallbackDirectories ← textsValue defaults.fallbackDirectories
    (← theme "fallback_directories" (data.field? "theme"))
  let extension ← textValue defaults.extension
    (← blade "file_extension" (data.field? "blade"))
  let developmentMode ← flagValue defaults.developmentMode
    (← blade "development_mode" (data.field? "blade"))
  return { templatesDirectory, fallbackDirectories, extension, developmentMode }

/-- Reads the settings from the content of a configuration file, if there is one, and from the
variables of the environment. -/
def load (file : Option String) (environment : List (String × String)) :
    Except Failure Settings := do
  let written ←
    match file with
    | none => pure (Data.record [])
    | some document =>
      match Toml.parse? document with
      | some data => pure data
      | none => throw (.configuration "the configuration file is malformed")
  let layers := environment.filterMap fun (name, value) => Environment.setting? name value
  let layered := layers.foldl (fun data layer => layer.layOver (some data)) (.record [])
  ofData (layered.layOver (some written))

/-- Puts other template directories in the place of those set, the first one first. -/
def withDirectories (settings : Settings) : List String → Settings
  | [] => settings
  | first :: fallbacks =>
    { settings with templatesDirectory := first, fallbackDirectories := fallbacks }

def roots (settings : Settings) : List String :=
  settings.templatesDirectory :: settings.fallbackDirectories

def fileLoader (settings : Settings) (tree : FileTree) : FileLoader where
  tree := tree
  roots := settings.roots
  extension := settings.extension

def engine {σ : Type} (settings : Settings) (loader : Loader) (host : Host σ) (hostState : σ)
    (defaults : DefaultsProvider) : Engine σ where
  library := ⟨loader, Registry.builtin⟩
  host := host
  hostState := hostState
  defaults := defaults
  developmentMode := settings.developmentMode
  templatesDirectory := settings.templatesDirectory
  extension := settings.extension

def logFilter (verbose : Bool) : String :=
  if verbose then "debug,snap_blade=trace" else "info"

end Settings

end ThemeTemplates
