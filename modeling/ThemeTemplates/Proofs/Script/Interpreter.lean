import Mathlib.Logic.Function.Basic
import ThemeTemplates.Proofs.Page.Shift
import ThemeTemplates.Proofs.Render.Layers
import ThemeTemplates.Proofs.Script.Basic

/-!
# What scripts mean

Scripts are interpreted as they are written. Variables are a function of their names. It is handed
to the body of a loop with the item and the metadata of the turn, to what follows the loop as it was
in front of it, and to a partial as far as data can hold the values; there is no stack that a loop
or a partial would have to leave as it found it. Hosts are shown the loops that a part stands in.
-/

namespace ThemeTemplates

variable {σ α : Type}

/-- The data that stand for a value outside of templates. -/
def Value.copy? : Value → Option Data
  | .undefined | .function _ | .session => Option.none
  | value => some value.toData

/-- The value of a path: its variable, or else the function of the site that has its name, and then
one field after the other. -/
def Path.value (functions : List String) (given : Layer) (path : Path) : Value :=
  let function := if functions.contains path.head then .function path.head else .undefined
  path.fields.foldl (fun value field => value.lookup (.ofString field))
    ((given path.head).getD function)

def Operand.value (functions : List String) (given : Layer) : Operand → Value
  | path _ p => p.value functions given
  | text s => .ofString s

namespace Script

open Evaluation Render

structure Around where
  /-- The loops in whose bodies the part stands, over all templates that are running. -/
  enclosing : List Turn
  /-- How many of them its own template has. -/
  level : Nat
  given : Layer

/-- The variables of a template that begins: the first of some layers to know a name gives its
value, and the handle of the render is no layer's. -/
def starting (layers : List Layer) : Layer :=
  Function.update (Layer.nearest? layers) sessionVariable (some .session)

namespace Around

/-- What stands around the body of a loop in one of its turns. -/
def turn (around : Around) (name : String) (items : List Data) (index : Nat) (item : Data)
    (previous next : Value) : Around :=
  let inside := ⟨items, index⟩ :: around.enclosing
  let state := Value.forState index items.length around.level previous next
  let bound := Function.update (Function.update around.given "loop" (some state)) name
    (some (.ofData item))
  { enclosing := inside
    level := around.level + 1
    given := Function.update bound Turn.loopVariable (some (Turn.value inside)) }

/-- What stands around the part behind a loop: the metadata of the loop around both is given out
anew. -/
def afterLoop (around : Around) : Around :=
  { around with
    given := Function.update around.given Turn.loopVariable (some (Turn.value around.enclosing)) }

def copy? (around : Around) (name : String) : Option Data :=
  (around.given name).bind Value.copy?

/-- What a partial has of the variables around its call. -/
def handedOn (around : Around) : Layer := fun name =>
  if name = "loop" ∨ "__".toList.isPrefixOf name.toList = true then none
  else (around.copy? name).map Value.ofData

end Around

/-- Prints a template inside some loops, given its variables. -/
abbrev Interpreter (σ : Type) := List Turn → String → Layer → Evaluation (Course σ) String

/-- What the body of a loop prints for the items from an index on. -/
def printTurns (kind : LoopKind) (name : String) (items : List Data) (around : Around)
    (body : Around → Evaluation (Course σ) String) :
    Nat → Value → List Data → Evaluation (Course σ) String
  | _, _, [] => return ""
  | index, previous, item :: rest => do
    Outline.standOn kind item
    let next := (rest.head?.map Value.ofData).getD .undefined
    let printed ← body (around.turn name items index item previous next)
    return printed ++ (← printTurns kind name items around body (index + 1) (.ofData item) rest)

section

variable (render : Render σ) (inner? : Option (Interpreter σ)) (template : String)

/-- What a partial comes to, which has the data it is given before the defaults of its name, and
these before a copy of the variables around it. -/
def partialResult (around : Around) (name : String) (data : ViewData) :
    StateM (Course σ) (Except Failure String) := do
  match render.defaults name, inner? with
  | .error error, _ => return .error (.collaborator "defaults" error)
  | .ok _, none => return .error (.evaluation name 0 (.nestedTooDeep 32))
  | .ok defaults, some inner =>
    let given := starting [.ofSettings data, .ofSettings defaults, around.handedOn]
    Course.settle name (inner around.enclosing name given)

def menu (around : Around) (name : Value) : Evaluation (Course σ) Value := do
  let seen := fun course : Course σ =>
    course.view template render.view around.enclosing around.copy?
  match ← (render.host.navMenu name.toData).carryOut seen (partialResult render inner? around) with
  | .ok answer => return .ofData answer
  | .error error => Course.failWith (.collaborator "nav_menu" error)

def items (around : Around) (kind : LoopKind) (source : Operand) :
    Evaluation (Course σ) (List Data) := do
  let named := source.value render.host.functions around.given
  let source ←
    match kind with
    | .loop => pure named
    | .simpleMenu => menu render inner? template around named
  match source.toData.items? with
  | some items => return items
  | none => complain (.notAList kind)

/-- What a partial without data of its own prints. -/
def partialOutput (around : Around) (slug : String) : Evaluation (Course σ) String := do
  match ← partialResult render inner? around (childTemplate slug) [] with
  | .ok output => return output
  | .error failure => Course.failWith failure

/-- What a script prints that is written from a line on. -/
def interpret : Script → Nat → Around → Evaluation (Course σ) String
  | done text, _, _ => return text
  | echo text path rest, line, around => do
    let value := path.value render.host.functions around.given
    return text ++ (value.print ++ (← rest.interpret (line + lineBreaks text.toList) around))
  | loop text kind source name body rest, line, around => do
    let start := line + lineBreaks text.toList
    let items ← locate template (shiftedLine 0 start)
      (items render inner? template around kind source)
    let entered := (← get).currentItem
    let printed ← printTurns kind name items around (body.interpret start) 0 .undefined items
    Outline.standOn kind entered
    return text ++ (printed ++ (← rest.interpret (start + body.breaks) around.afterLoop))
  | child text slug rest, line, around => do
    let start := line + lineBreaks text.toList
    let printed ← locate template (shiftedLine 0 start) (partialOutput render inner? around slug)
    return text ++ (printed ++ (← rest.interpret start around))

end

/-- Interprets templates, with so many partials inside each other at most. -/
def interpretWithin (render : Render σ) (scripts : String → Except Fault Script) :
    Nat → Option (Interpreter σ)
  | 0 => none
  | levels + 1 => some fun enclosing template given => do
    let script ← MonadExcept.ofExcept (scripts template)
    script.interpret render (interpretWithin render scripts levels) template 1
      { enclosing, level := 0, given }

/-- A root render of a script, in which 32 partials may be inside each other. -/
def interpretRoot (render : Render σ) (scripts : String → Except Fault Script) (template : String)
    (script : Script) (given : Layer) : StateM (Course σ) (Except Failure String) :=
  let inner? := interpretWithin render scripts 32
  Course.settle template
    (script.interpret render inner? template 1 { enclosing := [], level := 0, given })

end Script

end ThemeTemplates
