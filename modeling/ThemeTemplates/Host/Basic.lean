import ThemeTemplates.Host.Action

/-!
# Hosts

Everything a render knows of the site it is for comes from a host: queries, menus, permissions,
theme procedures and functions of its own. What a host leaves out is empty.
-/

namespace ThemeTemplates

/-- A site, with a state of type `σ` that lasts from one render to the next. -/
structure Host (σ : Type) where
  currentQuery : HostAction σ Data := .answer (.list [])
  navMenu : Data → HostAction σ Data := fun _ => .answer (.list [])
  /-- Page links as markup, for a configuration. -/
  paginate : Data → HostAction σ String := fun _ => .answer ""
  /-- Whether the user may perform an action on a subject. -/
  can : String → Data → HostAction σ Bool := fun _ _ => .answer false
  /-- Whether the user may perform one of some actions. -/
  canAny : List String → Data → HostAction σ Bool :=
    fun actions subject => HostAction.anyOf (fun action => can action subject) actions
  /-- The user who is signed in, null for a guest. -/
  currentUser : HostAction σ Data := .answer .null
  currentPost : σ → Data := fun _ => .null
  postType : HostAction σ String :=
    .look fun view => .answer (((view.currentItem.field? "post_type").bind Data.text?).getD "post")
  invoke : String → List Data → HostAction σ String := fun _ _ => .answer ""
  /-- The names of the functions templates may call. -/
  functions : List String := []
  /-- Answers a call of one of these functions. -/
  call : String → List Data → HostAction σ Data :=
    fun name _ => .fail (.report s!"unknown function `{name}`" [])

def Host.none {σ : Type} : Host σ := {}

end ThemeTemplates
