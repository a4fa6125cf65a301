import ThemeTemplates.Data.Reader
import ThemeTemplates.View

/-!
# Fixtures

A fixture stands in for a live site: the data of a render and what the site answers. It is read from
a record, or from a list that holds its parts in order; parts that are left out are empty.
-/

namespace ThemeTemplates

structure Fixture where
  /-- The data given to the rendered template. -/
  data : ViewData := []
  /-- Default data by template name or pattern. -/
  defaults : Fields ViewData := []
  query : List Data := []
  menus : Fields (List Data) := []
  permissions : List String := []
  /-- The user who is signed in, null for a guest. -/
  user : Data := .null
  post : Data := .null
  procedures : Fields String := []

namespace Fixture

def levels : Nat := 127

private def parts? : Data → Option (List (String × Data))
  | .record parts => some parts
  | _ => none

private def record? (value : Data) : Option ViewData :=
  parts? value.normalize

private def list? (value : Data) : Option (List Data) :=
  match value.normalize with
  | .list items => some items
  | _ => none

/-- The fields of a record, all of one type. Fields that are set again have to fit too. -/
private def fieldsOf? {α : Type} (read? : Data → Option α) (value : Data) : Option (Fields α) := do
  let settings ← (← parts? value).mapM fun (key, value) => do return (key, ← read? value)
  return Fields.ofList settings

def partNames : List String :=
  ["data", "defaults", "query", "menus", "permissions", "user", "post", "procedures"]

def setPart (fixture : Fixture) (name : String) (value : Data) : Option Fixture :=
  match name with
  | "data" => do return { fixture with data := ← record? value }
  | "defaults" => do return { fixture with defaults := ← fieldsOf? record? value }
  | "query" => do return { fixture with query := ← list? value }
  | "menus" => do return { fixture with menus := ← fieldsOf? list? value }
  | "permissions" => do
    return { fixture with permissions := ← (← list? value).mapM Data.text? }
  | "user" => some { fixture with user := value.normalize }
  | "post" => some { fixture with post := value.normalize }
  | "procedures" => do return { fixture with procedures := ← fieldsOf? Data.text? value }
  | _ => some fixture

def ofParts (parts : List (String × Data)) : Option Fixture := do
  let names := parts.map Prod.fst
  guard (names.eraseDups.length == names.length)
  parts.foldlM (fun fixture (name, value) => setPart fixture name value) {}

def read? (text : String) : Option Fixture := do
  match ← Data.readWanted? partNames.contains levels text with
  | .record parts => ofParts parts
  | .list values =>
    guard (values.length ≤ partNames.length)
    ofParts (partNames.zip values)
  | _ => none

def composers (fixture : Fixture) : List Composer :=
  fixture.defaults.map fun (pattern, data) =>
    { patterns := [.ofString pattern], compose := fun _ => data }

end Fixture

end ThemeTemplates
