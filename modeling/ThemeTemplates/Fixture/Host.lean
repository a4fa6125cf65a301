import ThemeTemplates.Data.Printer
import ThemeTemplates.Fixture.Basic
import ThemeTemplates.Host.Basic

/-!
# The host of a fixture

Answers from a fixture. Page links are rendered by a partial of the theme; a theme without that
partial has none.
-/

namespace ThemeTemplates

namespace Fixture

def paginationPartial : String := "partials.pagination"

private def refuse {σ α : Type} (text : String) : HostAction σ α :=
  .fail (.report text [])

def menu {σ : Type} (fixture : Fixture) (name : Data) : HostAction σ Data :=
  match name with
  | .text name =>
    match fixture.menus.find? name with
    | some items => .answer (.list items)
    | none => refuse s!"no menu named `{name}` in fixture"
  | name => refuse s!"menu name must be a string, got {name.print}"

/-- Page links for a configuration. Only the lack of the partial itself is passed over. -/
def paginate {σ : Type} (config : Data) : HostAction σ String :=
  .renderChild paginationPartial [("pagination", config)] fun
    | .ok output => .answer output
    | .error (.templateNotFound name) =>
      if name == paginationPartial then .answer ""
      else .fail (.failure (.templateNotFound name))
    | .error failure => .fail (.failure failure)

def host (fixture : Fixture) : Host Unit where
  currentQuery := .answer (.list fixture.query)
  navMenu := fixture.menu
  paginate := paginate
  can := fun action _ => .answer (fixture.permissions.contains action)
  currentUser := .answer fixture.user
  currentPost := fun _ => fixture.post
  invoke := fun name _ => .answer ((fixture.procedures.find? name).getD "")

end Fixture

end ThemeTemplates
