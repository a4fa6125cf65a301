import ThemeTemplates.Data.Fields
import ThemeTemplates.Failure.Basic

/-!
# Loaders

Where template sources come from.
-/

namespace ThemeTemplates

structure Loader where
  /-- The source of a template, none if there is no such template. -/
  load : String → Except Failure (Option String)
  /-- The names of all templates in ascending order. -/
  list : Except Failure (List String)

def Loader.ofTemplates (templates : Fields String) : Loader where
  load := fun name => .ok (templates.find? name)
  list := .ok templates.keys

end ThemeTemplates
