import ThemeTemplates.Data.Printer
import ThemeTemplates.Directive.Function
import ThemeTemplates.Render.Basic

/-!
# What the functions of the directives do

Each function checks its arguments, finds the render it belongs to, and then works on the session or
asks the host.
-/

namespace ThemeTemplates

namespace Render

variable {σ : Type}

def textArgument : Value → Evaluation (RenderState σ) String
  | .text s _ => return s
  | _ => Evaluation.complain .textExpected

def optional : Value → Option Value
  | .undefined | .none => none
  | value => some value

def wrongCount {α : Type} (needed : Nat) (args : List Value) :
    Evaluation (RenderState σ) α :=
  Evaluation.complain (if args.length < needed then .missingArgument else .tooManyArguments)

def checkActive (site : Site) : Evaluation (RenderState σ) Unit :=
  match site.scope.find? sessionVariable with
  | some .session => return
  | _ => throw (.carrying (.noActiveRender site.template) none)

def loopKind (name : String) : Evaluation (RenderState σ) LoopKind :=
  match LoopKind.ofName? name with
  | some kind => return kind
  | none => Evaluation.complain (.unknownLoopKind name)

/-- Loop metadata as a page value, its fields in the order of `LoopMetadata.ownFields`. -/
def metadataValue (loop : LoopMetadata) : Value :=
  let own := loop.ownFields.map fun (name, value) => (Value.ofString name, Value.ofData value)
  match loop with
  | { parent := none, .. } => .map own
  | { parent := some outer, .. } => .map (own ++ [(.ofString "parent", metadataValue outer)])

def loopValue : Evaluation (RenderState σ) Value := do
  match (← get).session.loops.metadata? with
  | some metadata => return metadataValue metadata
  | none => return .undefined

def loopPush (site : Site) (source : Value) (kindName : String) :
    Evaluation (RenderState σ) Value := do
  checkActive site
  let kind ← loopKind kindName
  match source.toData.items? with
  | some items =>
    modify fun state => { state with session := state.session.pushLoop kind items }
    return .ofData (.list items)
  | none => Evaluation.complain (.notAList kind)

def changeLoops (change : Session → Except LoopStackError Session) :
    Evaluation (RenderState σ) Value := do
  match change (← get).session with
  | .ok session =>
    modify fun state => { state with session }
    loopValue
  | .error error => failWith (.loopStack error)

def loopNext (site : Site) (item : Value) (kindName : String) :
    Evaluation (RenderState σ) Value := do
  checkActive site
  let kind ← loopKind kindName
  changeLoops fun session => session.nextLoop kind item.toData

def loopPop (site : Site) (kindName : String) : Evaluation (RenderState σ) Value := do
  checkActive site
  let kind ← loopKind kindName
  changeLoops fun session => session.popLoop kind

def childMarkup (render : Render σ) (renderer : Renderer σ) (site : Site) (template : String)
    (data : Option Value) : Evaluation (RenderState σ) Value := do
  checkActive site
  match ((data.map Value.toData).getD .null).viewData? with
  | none => Evaluation.complain (.dataNotRecord template)
  | some data =>
    match ← render.renderChild renderer site template data with
    | .ok output => return .markup output
    | .error failure => failWith failure

def setItem (site : Site) (item : RenderState σ → Data) : Evaluation (RenderState σ) Value := do
  checkActive site
  modify fun state => { state with session := { state.session with currentItem := item state } }
  return .ofString ""

def callFunction (render : Render σ) (renderer : Renderer σ) (site : Site) :
    PageFunction → List Value → Evaluation (RenderState σ) Value
  | .loopPush, [source, kind] => do loopPush site source (← textArgument kind)
  | .loopNext, [item, kind] => do loopNext site item (← textArgument kind)
  | .loopPop, [kind] => do loopPop site (← textArgument kind)
  | .currentQuery, [] => do
    checkActive site
    return .ofData (← ask "current_query" render.host.currentQuery)
  | .navMenu, [menu] => do
    checkActive site
    return .ofData (← ask "nav_menu" (render.host.navMenu menu.toData))
  | .paginate, [] => paginate none
  | .paginate, [config] => paginate (optional config)
  | .renderChild, [name] => do
    childMarkup render renderer site (← textArgument name) none
  | .renderChild, [name, data] => do
    childMarkup render renderer site (← textArgument name) (optional data)
  | .postType, [] => do
    checkActive site
    return .ofString (← ask "post_type" render.host.postType)
  | .currentItem, [] => do
    checkActive site
    return .ofData (← get).session.currentItem
  | .setCurrentItem, [item] => setItem site fun _ => item.toData
  | .resetCurrentItem, [] => setItem site fun _ => render.baseItem
  | .can, [action] => do can (← textArgument action) none
  | .can, [action, subject] => do can (← textArgument action) (optional subject)
  | .canAny, [actions] => canAny actions none
  | .canAny, [actions, subject] => canAny actions (optional subject)
  | .auth, [] => do
    checkActive site
    return .bool (← ask "current_user" render.host.currentUser).truthy
  | .invoke, name :: args => do
    let name ← textArgument name
    checkActive site
    return .markup (← ask name (render.host.invoke name (args.map Value.toData)))
  | function, args => wrongCount (needed function) args
where
  /-- How many arguments a function needs at least. -/
  needed : PageFunction → Nat
    | .loopPush | .loopNext => 2
    | .loopPop | .navMenu | .renderChild | .setCurrentItem | .can | .canAny | .invoke => 1
    | _ => 0
  ask {α : Type} (name : String) (action : HostAction σ α) : Evaluation (RenderState σ) α :=
    render.ask renderer site name action
  subjectOf (subject : Option Value) : Data :=
    (subject.map Value.toData).getD .null
  paginate (config : Option Value) : Evaluation (RenderState σ) Value := do
    checkActive site
    let config :=
      match subjectOf config with
      | .null => Data.record []
      | config => config
    return .markup (← ask "paginate" (render.host.paginate config))
  can (action : String) (subject : Option Value) : Evaluation (RenderState σ) Value := do
    checkActive site
    return .bool (← ask "can" (render.host.can action (subjectOf subject)))
  canAny (actions : Value) (subject : Option Value) : Evaluation (RenderState σ) Value := do
    checkActive site
    let actions :=
      match actions.toData with
      | .list items => items.map Data.display
      | single => [single.display]
    return .bool (← ask "can_any" (render.host.canAny actions (subjectOf subject)))

def callHost (render : Render σ) (renderer : Renderer σ) (site : Site) (name : String)
    (args : List Value) : Evaluation (RenderState σ) Value := do
  checkActive site
  return .ofData (← render.ask renderer site name (render.host.call name (args.map Value.toData)))

/-- What pages of a render find around them. The functions of the host stand before those of the
directives. -/
def surroundings (render : Render σ) (renderer : Renderer σ) : Surroundings (RenderState σ) where
  isFunction := fun name =>
    render.host.functions.contains name || (PageFunction.ofName? name).isSome
  load := render.fetch
  call := fun site name args =>
    if render.host.functions.contains name then render.callHost renderer site name args
    else
      match PageFunction.ofName? name with
      | some function => render.callFunction renderer site function args
      | none => Evaluation.complain (.unknownFunction name)

def renderWithin (render : Render σ) : Nat → Renderer σ
  | 0, _, _ => Evaluation.complain (.nestedTooDeep Session.depthLimit)
  | levels + 1, template, given => do
    let page ← render.fetch template
    Evaluation.printPage (render.surroundings (renderWithin render levels)) page given

/-- Runs a page at the root: its loops must be closed in the end, and a failure that was kept comes
out. -/
def root (render : Render σ) (page : Page) (data : ViewData) :
    StateM (RenderState σ) (Except Failure String) := do
  let surroundings := render.surroundings (render.renderWithin Session.depthLimit)
  match ← (Evaluation.printPage surroundings page (context data)).run with
  | .ok output =>
    match (← get).session.loops.verify LoopStack.empty.checkpoint with
    | .ok () => return .ok output
    | .error error => return .error (.loopStack error)
  | .error fault => return .error (← takeFailure page.template fault)

end Render

end ThemeTemplates
