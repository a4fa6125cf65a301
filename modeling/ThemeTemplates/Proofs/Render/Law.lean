import ThemeTemplates.Proofs.Page.Outline
import ThemeTemplates.Proofs.Render.Slot

/-!
# The law of directive loops

What the loops of a template mean, said without a stack. A loop runs its body once for each of its
items; the loops around code are those whose bodies it stands in, over all templates that are
running. The host is shown just these. The current item is that of the innermost `@loop` or what was
set last; a loop that ends gives back the one it found.

The law has a state of its own, with the item that is current and little else, and says itself what
each call does to it.
-/

namespace ThemeTemplates

open Evaluation

variable {σ α : Type}

namespace LoopMetadata

/-- Whether every number in the metadata, those of the loops around included, is one of 64 bits. -/
def fits (loop : LoopMetadata) : Bool :=
  let own := [loop.index, loop.iteration, loop.remaining, loop.count, loop.depth].all
    fun number => Value.isDataInt number
  match loop with
  | { parent := none, .. } => own
  | { parent := some outer, .. } => own && outer.fits

/-- Metadata as site data. A loop over more items than can be counted has none. -/
def json (loop : LoopMetadata) : Data :=
  if loop.fits then loop.toData else .null

end LoopMetadata

/-- The data that a template finds in a variable. -/
def Scope.data? (scope : Scope) (name : String) : Option Data :=
  (scope.find? name).bind fun value => if value.isData then some value.toData else none

/-- A directive loop that stands on one of its items. -/
structure Turn where
  items : List Data
  index : Nat

namespace Turn

/-- What hosts see of the innermost of some loops. -/
def metadata? : List Turn → Option LoopMetadata
  | [] => none
  | turn :: outer => some
    { index := turn.index
      iteration := turn.index + 1
      remaining := turn.items.length - (turn.index + 1)
      count := turn.items.length
      first := turn.index == 0
      last := turn.index + 1 == turn.items.length
      even := (turn.index + 1) % 2 == 0
      odd := (turn.index + 1) % 2 == 1
      depth := outer.length + 1
      parent := metadata? outer }

/-- The variable that loops set to their metadata. -/
def loopVariable : String := "blade_loop"

/-- What the variable holds inside some loops. -/
def value : List Turn → Value
  | [] => .undefined
  | turn :: outer =>
    let fields : List (String × Data) :=
      [("index", .int turn.index), ("iteration", .int (turn.index + 1)),
        ("remaining", .int ↑(turn.items.length - (turn.index + 1))),
        ("count", .int turn.items.length), ("first", .bool (turn.index == 0)),
        ("last", .bool (turn.index + 1 == turn.items.length)),
        ("even", .bool ((turn.index + 1) % 2 == 0)), ("odd", .bool ((turn.index + 1) % 2 == 1)),
        ("depth", .int (outer.length + 1))]
    let own := fields.map fun field => (Value.ofString field.1, Value.ofData field.2)
    .map (if outer.isEmpty then own else own ++ [(.ofString "parent", value outer)])

end Turn

/-- What the law keeps in the course of a root render. -/
structure Course (σ : Type) where
  currentItem : Data
  failure : Option Failure := none
  host : σ
  /-- The data that partials have been given, the latest first. -/
  given : List ViewData := []

namespace Course

def setItem (item : Data) : Evaluation (Course σ) Unit :=
  modify fun course => { course with currentItem := item }

/-- Stops with a failure, which is on its way out unless another one is. -/
def failWith (failure : Failure) : Evaluation (Course σ) α := do
  modify fun course => { course with failure := course.failure.or (some failure) }
  complain (.custom failure.message)

/-- The failure of a template that stopped with a fault; it is out then. -/
def takeFailure (template : String) (fault : Fault) : StateM (Course σ) Failure := do
  let course ← get
  set { course with failure := none }
  return course.failure.getD (Failure.ofFault fault template)

/-- Runs a template to its end. What it prints is the result, or else the failure that it stopped
with. -/
def settle (template : String) (evaluation : Evaluation (Course σ) String) :
    StateM (Course σ) (Except Failure String) := do
  match ← evaluation.run with
  | .ok output => return .ok output
  | .error fault => return .error (← takeFailure template fault)

/-- What a host sees inside some loops, given the variables of the template that asks it. -/
def view (course : Course σ) (template : String) (view : Option String) (enclosing : List Turn)
    (data? : String → Option Data) : RenderView where
  template
  view
  currentItem := course.currentItem
  loop := Turn.metadata? enclosing
  loopDepth := enclosing.length
  find? := fun name =>
    if name = Turn.loopVariable then (Turn.metadata? enclosing).map LoopMetadata.json
      else data? name

end Course

/-- Carries out what a host does that sees `seen` of a course and has partials rendered by
`child`. -/
def HostAction.carryOut (seen : Course σ → RenderView)
    (child : String → ViewData → StateM (Course σ) (Except Failure String)) :
    HostAction σ α → StateM (Course σ) (Except HostError α)
  | answer value => return .ok value
  | fail error => return .error error
  | look resume => do (resume (seen (← get))).carryOut seen child
  | readState resume => do (resume (← get).host).carryOut seen child
  | writeState host resume => do
    modify fun course => { course with host }
    resume.carryOut seen child
  | renderChild template data resume => do (resume (← child template data)).carryOut seen child

namespace Outline

/-- The items of a loop over the values of its sources, of which there is one. -/
def itemsOf (kind : LoopKind) : List Value → Evaluation σ (List Data)
  | [] => complain .missingArgument
  | [source] =>
    match source.toData.items? with
    | some items => return items
    | none => complain (.notAList kind)
  | _ => complain .tooManyArguments

def items (surroundings : Surroundings σ) (site : Site) (kind : LoopKind) (line : Nat)
    (sources : List Expression) : Evaluation σ (List Data) := do
  let values ← evalAll surroundings site sources
  locate site.template line (itemsOf kind values)

/-- Makes an item the current one, if the loop is a `@loop`. -/
def standOn : LoopKind → Data → Evaluation (Course σ) Unit
  | .loop, item => Course.setItem item
  | .simpleMenu, _ => return

def turnFrame (name : String) (item : Data) (index length depth : Nat) (previous next : Value) :
    Frame where
  locals := [(name, .ofData item)]
  loop := some (.forState index length depth previous next)

/-- Runs the body of a loop for an item, in a frame of its own. -/
def turn (kind : LoopKind) (item : Data) (inside : List Turn) (frame : Frame)
    (body : List Turn → Progress → Evaluation (Course σ) Progress) (progress : Progress) :
    Evaluation (Course σ) Progress := do
  standOn kind item
  let scope := (progress.scope.enter frame).set Turn.loopVariable (Turn.value inside)
  body inside { progress with scope }

/-- Runs the body of a loop for the items from an index on. The number is how many `for` loops are
around this one, and `previous` is the item in front. -/
def turns (kind : LoopKind) (name : String) (items : List Data) (enclosing : List Turn)
    (depth : Nat) (body : List Turn → Progress → Evaluation (Course σ) Progress) :
    Nat → Value → List Data → Progress → Evaluation (Course σ) Progress
  | _, _, [], progress => return progress
  | index, previous, item :: rest, progress => do
    let next := (rest.head?.map Value.ofData).getD .undefined
    let frame := turnFrame name item index items.length depth previous next
    let progress ← turn kind item (⟨items, index⟩ :: enclosing) frame body progress
    turns kind name items enclosing depth body (index + 1) (.ofData item) rest
      { progress with scope := progress.scope.leave }

/-- Runs a template inside some loops. What there is to call may depend on them. -/
def run (around : List Turn → Surroundings (Course σ)) (template : String) :
    Outline → List Turn → Progress → Evaluation (Course σ) Progress
  | done, _, progress => return progress
  | text s rest, enclosing, progress => rest.run around template enclosing (progress.print s)
  | echo value rest, enclosing, progress => do
    let value ← eval (around enclosing) ⟨template, progress.scope⟩ value
    rest.run around template enclosing (progress.print value.print)
  | conditional condition body otherwise rest, enclosing, progress => do
    let value ← eval (around enclosing) ⟨template, progress.scope⟩ condition
    let branch := if value.isTrue then body.run around template else otherwise.run around template
    rest.run around template enclosing (← branch enclosing progress)
  | loop kind line name sources body rest, enclosing, progress => do
    let items ← items (around enclosing) ⟨template, progress.scope⟩ kind line sources
    let entered := (← get).currentItem
    locate template line (checkDepth progress.scope)
    let progress ← turns kind name items enclosing progress.scope.loopDepth
      (body.run around template) 0 .undefined items progress
    standOn kind entered
    rest.run around template enclosing
      { progress with scope := progress.scope.set Turn.loopVariable (Turn.value enclosing) }

end Outline

/-! ### Calls -/

/-- Prints a template inside some loops, given some variables. -/
abbrev LawfulRenderer (σ : Type) := List Turn → String → Fields Value → Evaluation (Course σ) String

namespace Render

section

variable (render : Render σ) (inner? : Option (LawfulRenderer σ)) (enclosing : List Turn)

/-- Renders a partial of a template that is running, if there may be another one inside it. -/
def lawfulChild (scope : Scope) (template : String) (data : ViewData) :
    StateM (Course σ) (Except Failure String) := do
  modify fun course => { course with given := data :: course.given }
  match View.resolveChild render.defaults template scope.inheritable data, inner? with
  | .error failure, _ => return .error failure
  | .ok _, none => return .error (.evaluation template 0 (.nestedTooDeep 32))
  | .ok merged, some inner => Course.settle template (inner enclosing template (context merged))

def lawfulAsk (site : Site) (asked : String) (action : HostAction σ α) :
    Evaluation (Course σ) α := do
  let seen := fun course : Course σ =>
    course.view site.template render.view enclosing site.scope.data?
  match ← action.carryOut seen (render.lawfulChild inner? enclosing site.scope) with
  | .ok answer => return answer
  | .error error => Course.failWith (.collaborator asked error)

def lawfulPartial (site : Site) (template : String) (data : ViewData) :
    Evaluation (Course σ) Value := do
  match ← render.lawfulChild inner? enclosing site.scope template data with
  | .ok output => return .markup output
  | .error failure => Course.failWith failure

/-- What a call of a function complains of that has nothing to do. -/
def misuse : PageFunction → List Value → Complaint
  | .renderChild, [.text template _, _] => .dataNotRecord template
  | .renderChild, [_] | .renderChild, [_, _] | .can, [_] | .can, [_, _] | .invoke, _ :: _ =>
    .textExpected
  | function, args =>
    if args.length < callFunction.needed function then .missingArgument else .tooManyArguments

/-- What a call does that neither asks the host nor renders a partial: it shows the current item,
sets it to its argument or to the item of the start, or complains. -/
def lawfulItem : PageFunction → List Value → Evaluation (Course σ) Value
  | .currentItem, [] => do return .ofData (← get).currentItem
  | .setCurrentItem, [item] => do
    Course.setItem item.toData
    return .ofString ""
  | .resetCurrentItem, [] => do
    Course.setItem render.baseItem
    return .ofString ""
  | function, args => complain (misuse function args)

def lawfulCall (site : Site) (name : String) (args : List Value) : Evaluation (Course σ) Value :=
  match render.undertakes? name args with
  | some (.ask asked action yield) => do
    return yield (← render.lawfulAsk inner? enclosing site asked action)
  | some (.child template data) => render.lawfulPartial inner? enclosing site template data
  | _ =>
    match PageFunction.ofName? name with
    | some function => render.lawfulItem function args
    | none => complain (.unknownFunction name)

/-- What pages find around them inside some loops. -/
def lawfulSurroundings : Surroundings (Course σ) where
  isFunction := fun name =>
    render.host.functions.contains name || (PageFunction.ofName? name).isSome
  load := fun template => MonadExcept.ofExcept (render.library.compile template)
  call := render.lawfulCall inner? enclosing

def lawfulPage (page : Page) (given : Fields Value) : Evaluation (Course σ) String := do
  let start : Progress := { scope := { given }, blocks := page.blocks }
  let stop ← (Outline.ofStatements page.body).run (render.lawfulSurroundings inner?) page.template
    enclosing start
  return stop.output

end

/-- Prints templates by the law, with so many partials inside each other at most. -/
def lawfulWithin (render : Render σ) : Nat → Option (LawfulRenderer σ)
  | 0 => none
  | levels + 1 => some fun enclosing template given => do
    let page ← MonadExcept.ofExcept (render.library.compile template)
    render.lawfulPage (lawfulWithin render levels) enclosing page given

/-- A root render by the law, in which 32 partials may be inside each other. -/
def lawful (render : Render σ) (page : Page) (data : ViewData) :
    StateM (Course σ) (Except Failure String) :=
  Course.settle page.template (render.lawfulPage (render.lawfulWithin 32) [] page (context data))

end Render

/-- A root render of an engine by the law: what it comes to, and the course in the end. The current
item is at the start, and again when it is reset, the post that is the host's current one at the
start. -/
def Engine.lawful (engine : Engine σ) (template : String) (data : ViewData) (view : Option String) :
    Except Failure String × Course σ :=
  let post := engine.host.currentPost engine.hostState
  let begun : Course σ := { currentItem := post, host := engine.hostState }
  match engine.library.compile template, engine.rootData template data with
  | .error fault, _ => (.error (Failure.ofFault fault template), begun)
  | .ok _, .error failure => (.error failure, begun)
  | .ok page, .ok given =>
    let render : Render σ :=
      { library := engine.library, host := engine.host, defaults := engine.defaults, view
        baseItem := post }
    (render.lawful page given).run begun

end ThemeTemplates
