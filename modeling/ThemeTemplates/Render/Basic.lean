import ThemeTemplates.Host.Basic
import ThemeTemplates.Library.Basic
import ThemeTemplates.Page.Evaluation
import ThemeTemplates.Render.Session
import ThemeTemplates.View

/-!
# Renders

A render runs pages with the functions of the directives around them. Partials are renders inside
it: each is given the variables of its caller, its defaults and its own data, and shares the
session. No more than `Session.depthLimit` of them are inside each other, which bounds the
recursion.
-/

namespace ThemeTemplates

/-- What stays the same throughout a root render. -/
structure Render (σ : Type) where
  library : Library
  host : Host σ
  defaults : DefaultsProvider
  /-- The view that is rendered, if it is one. -/
  view : Option String
  baseItem : Data

/-- What changes in the course of a root render. -/
structure RenderState (σ : Type) where
  session : Session
  host : σ
  compiled : Fields Page

namespace Render

variable {σ : Type}

def sessionVariable : String := "__snap_render"

def context (data : ViewData) : Fields Value :=
  (data.mapValues Value.ofData).insert sessionVariable .session

/-- Stops a page with a failure, which is kept until the render that has to report it ends. -/
def failWith {α : Type} (failure : Failure) : Evaluation (RenderState σ) α := do
  modify fun state => { state with session := state.session.record failure }
  Evaluation.complain (.custom failure.message)

/-- The failure of a template that stopped with a fault: the one that was kept, which is taken, or
else what the fault amounts to. -/
def takeFailure (template : String) (fault : Fault) : StateM (RenderState σ) Failure := do
  let state ← get
  set { state with session := { state.session with failure := none } }
  return state.session.failure.getD (Failure.ofFault fault template)

def fetch (render : Render σ) (template : String) : Evaluation (RenderState σ) Page :=
  ExceptT.mk fun state =>
    let (result, compiled) := render.library.fetch state.compiled template
    (result, { state with compiled })

abbrev Renderer (σ : Type) := String → Fields Value → Evaluation (RenderState σ) String

def renderChild (render : Render σ) (renderer : Renderer σ) (site : Site) (template : String)
    (data : ViewData) : StateM (RenderState σ) (Except Failure String) := do
  match View.resolveChild render.defaults template site.scope.inheritable data with
  | .error failure => return .error failure
  | .ok merged =>
    let state ← get
    match state.session.enter template with
    | .error failure => return .error failure
    | .ok (mark, session) =>
      set { state with session }
      let result : Except Failure String ←
        match ← (renderer template (context merged)).run with
        | .ok output => pure (.ok output)
        | .error fault => pure (.error (← takeFailure template fault))
      let state ← get
      let (result, session) := state.session.leave mark result
      set { state with session }
      return result

def look (render : Render σ) (site : Site) (state : RenderState σ) : RenderView where
  template := site.template
  view := render.view
  currentItem := state.session.currentItem
  loop := state.session.loops.metadata?
  loopDepth := state.session.loops.depth
  find? := fun name =>
    match site.scope.find? name with
    | some value => if value.isData then some value.toData else none
    | none => none

def perform {α : Type} (render : Render σ) (renderer : Renderer σ) (site : Site) :
    HostAction σ α → StateM (RenderState σ) (Except HostError α)
  | .answer value => return .ok value
  | .fail error => return .error error
  | .look resume => do perform render renderer site (resume (render.look site (← get)))
  | .readState resume => do perform render renderer site (resume (← get).host)
  | .writeState host resume => do
    modify fun state => { state with host }
    perform render renderer site resume
  | .renderChild template data resume => do
    perform render renderer site (resume (← render.renderChild renderer site template data))

def ask {α : Type} (render : Render σ) (renderer : Renderer σ) (site : Site) (function : String)
    (action : HostAction σ α) : Evaluation (RenderState σ) α := do
  match ← perform render renderer site action with
  | .ok value => return value
  | .error error => failWith (.collaborator function error)

end Render

end ThemeTemplates
