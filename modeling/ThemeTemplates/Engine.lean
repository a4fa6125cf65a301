import ThemeTemplates.Directive.Builtin
import ThemeTemplates.Name
import ThemeTemplates.Render.Function

/-!
# The engine

Compiles and renders the templates of a library for a host. Compiled pages are kept until a
directive is registered or removed; in development mode they are dropped before each root operation,
so that changed sources are seen at once.
-/

namespace ThemeTemplates

structure Engine (σ : Type) where
  library : Library
  host : Host σ
  hostState : σ
  defaults : DefaultsProvider := DefaultsProvider.none
  developmentMode : Bool := false
  /-- The directory that view names are relative to. -/
  templatesDirectory : String := "templates"
  extension : String := ".blade.html"
  compiled : Fields Page := []

namespace Engine

variable {σ : Type}

/-- The variable with the name of the view that is rendered. -/
def viewVariable : String := "current_view"

/-- The variable with the current post of the host. -/
def postVariable : String := "post"

def register (engine : Engine σ) (directive : Directive) : Option Directive × Engine σ :=
  let directives := engine.library.directives
  (directives.find? directive.name,
    { engine with
      library := { engine.library with directives := directives.register directive }
      compiled := [] })

def remove (engine : Engine σ) (name : String) : Option Directive × Engine σ :=
  match engine.library.directives.find? name with
  | none => (none, engine)
  | some directive =>
    (some directive,
      { engine with
        library := { engine.library with directives := engine.library.directives.remove name }
        compiled := [] })

def viewName (engine : Engine σ) (slug : String) : String :=
  String.ofList
    (ThemeTemplates.viewName engine.templatesDirectory.toList engine.extension.toList slug.toList)

def refresh (engine : Engine σ) : Engine σ :=
  if engine.developmentMode then { engine with compiled := [] } else engine

def fetch (engine : Engine σ) (template : String) : Except Failure Page × Engine σ :=
  let (result, compiled) := engine.library.fetch engine.compiled template
  (result.mapError fun fault => Failure.ofFault fault template, { engine with compiled })

def compile (engine : Engine σ) (template : String) : Except Failure Unit × Engine σ :=
  let (result, engine) := engine.refresh.fetch template
  (result.map fun _ => (), engine)

def expand (engine : Engine σ) (template : String) : Except Failure (List Char) :=
  engine.library.expand template

/-- The variables a root render starts with: the data over the defaults, and the host's current post
unless there is a post among them. -/
def rootData (engine : Engine σ) (template : String) (data : ViewData) :
    Except Failure ViewData := do
  let data ← View.resolveRoot engine.defaults template data
  if data.contains postVariable then return data
  else return data.insert postVariable (engine.host.currentPost engine.hostState)

def renderRoot (engine : Engine σ) (template : String) (data : ViewData)
    (view : Option String) : Except Failure String × Engine σ :=
  let (page, engine) := engine.refresh.fetch template
  match (do return (← page, ← engine.rootData template data)) with
  | .error failure => (.error failure, engine)
  | .ok (page, data) =>
    let baseItem := engine.host.currentPost engine.hostState
    let render : Render σ :=
      { library := engine.library, host := engine.host, defaults := engine.defaults
        view, baseItem }
    let start : RenderState σ :=
      { session := { currentItem := baseItem }
        host := engine.hostState
        compiled := engine.compiled }
    let (result, stop) := (render.root page data).run start
    (result, { engine with hostState := stop.host, compiled := stop.compiled })

def render (engine : Engine σ) (template : String) (data : ViewData) :
    Except Failure String × Engine σ :=
  engine.renderRoot template data none

/-- Renders the view for a theme file; its name is known to the templates and to the host. -/
def renderView (engine : Engine σ) (slug : String) (data : ViewData) :
    Except Failure String × Engine σ :=
  let view := engine.viewName slug
  engine.renderRoot view (data.insert viewVariable (.text view)) (some view)

def renderPartial (engine : Engine σ) (slug : String) (data : ViewData) :
    Except Failure String × Engine σ :=
  engine.render (String.ofList (partialName slug.toList)) data

end Engine

end ThemeTemplates
