import ThemeTemplates.Failure.Fault
import ThemeTemplates.Page.Comparison
import ThemeTemplates.Page.Printer
import ThemeTemplates.Page.Scope
import ThemeTemplates.Page.Tree
import ThemeTemplates.Text.Upper

/-!
# Evaluation of pages

Runs the statements of a page against a scope and yields what it prints. Functions and other pages
come from the surroundings, whose state is kept also when an evaluation stops with a fault. A page
that extends another prints nothing more of its own; when it ends, the other page runs in the same
scope with the blocks of both, those met first standing.

Of the filters and tests of the page language only `safe` and `upper`, `defined` and `undefined` are
known. A page that uses another one fails as it would with a name that the language does not know.
-/

namespace ThemeTemplates

abbrev Evaluation (σ : Type) := ExceptT Fault (StateM σ)

structure Site where
  template : String
  scope : Scope

structure Surroundings (σ : Type) where
  isFunction : String → Bool
  call : Site → String → List Value → Evaluation σ Value
  load : String → Evaluation σ Page

namespace Evaluation

variable {σ : Type}

def complain {α : Type} (complaint : Complaint) : Evaluation σ α :=
  throw (Fault.ofComplaint complaint)

def locate {α : Type} (template : String) (line : Nat) (evaluation : Evaluation σ α) :
    Evaluation σ α :=
  tryCatch evaluation fun fault => throw (fault.located ⟨template, line⟩)

/-! ### Expressions -/

def resolve? (surroundings : Surroundings σ) (scope : Scope) (name : String) : Option Value :=
  match scope.find? name with
  | some value => some value
  | none => if surroundings.isFunction name then some (.function name) else none

/-- Names whose calls mean something of their own and never reach a value of the name. -/
def ownCalls : List String :=
  ["loop", "super"]

def applyValue (surroundings : Surroundings σ) (site : Site) (value : Value)
    (args : List Value) : Evaluation σ Value :=
  match value with
  | .function name => surroundings.call site name args
  | _ => complain .notCallable

def applyFilter (name : String) (value : Value) (args : List Value) : Evaluation σ Value :=
  match name with
  | "safe" => if args.isEmpty then return .markup value.display else complain .tooManyArguments
  | "upper" =>
    if args.isEmpty then
      return .text (String.ofList (upperCase value.display.toList)) value.isMarkup
    else complain .tooManyArguments
  | name => complain (.unknownFilter name)

def applyTest (name : String) (value : Value) (args : List Value) : Evaluation σ Bool :=
  let isUndefined :=
    match value with
    | .undefined => true
    | _ => false
  match name with
  | "undefined" => if args.isEmpty then return isUndefined else complain .tooManyArguments
  | "defined" => if args.isEmpty then return !isUndefined else complain .tooManyArguments
  | name => complain (.unknownTest name)

mutual
/-- The value of an expression of the part of the language that `Page.parse` reads. -/
def eval (surroundings : Surroundings σ) (site : Site) : Expression → Evaluation σ Value
  | .constant _ value => return value
  | .named _ name => return (resolve? surroundings site.scope name).getD .undefined
  | .list _ items => return .list (← evalAll surroundings site items)
  | .map _ entries => do
    let entries ← evalEntries surroundings site entries
    return .map (entries.foldl (fun map (key, value) => Value.setEntry map key value) [])
  | .field base name => return (← eval surroundings site base).lookup (.ofString name)
  | .element base key => do
    let base ← eval surroundings site base
    return base.lookup (← eval surroundings site key)
  | .call line function args => do
    let args ← evalAll surroundings site args
    locate site.template line <|
      match resolve? surroundings site.scope function with
      | some value =>
        if ownCalls.contains function then complain (.unknownFunction function)
        else applyValue surroundings site value args
      | none => complain (.unknownFunction function)
  | .apply line base args => do
    let base ← eval surroundings site base
    let args ← evalAll surroundings site args
    locate site.template line (applyValue surroundings site base args)
  | .filter line base name args => do
    let base ← eval surroundings site base
    let args ← evalAll surroundings site args
    locate site.template line (applyFilter name base args)
  | .test line base name args => do
    let base ← eval surroundings site base
    let args ← evalAll surroundings site args
    locate site.template line (return .bool (← applyTest name base args))
  | .not operand => return .bool !(← eval surroundings site operand).isTrue
  | .negate _ operand => do
    match (← eval surroundings site operand).negate? with
    | some value => return value
    | none => locate site.template operand.line (complain (.unsupportedOperands "-"))
  | .equal first others => do
    let first ← eval surroundings site first
    return .bool (← evalEqual surroundings site first others)
  | .sum left right => do
    let first ← eval surroundings site left
    let second ← eval surroundings site right
    match first.sum? second with
    | some value => return value
    | none => locate site.template right.line (complain (.unsupportedOperands "+"))
  | .join left right => do
    let first ← eval surroundings site left
    return .ofString (first.display ++ (← eval surroundings site right).display)

def evalAll (surroundings : Surroundings σ) (site : Site) :
    List Expression → Evaluation σ (List Value)
  | [] => return []
  | first :: rest => do
    let first ← eval surroundings site first
    return first :: (← evalAll surroundings site rest)

def evalEntries (surroundings : Surroundings σ) (site : Site) :
    List (Expression × Expression) → Evaluation σ (List (Value × Value))
  | [] => return []
  | (key, value) :: rest => do
    let key ← eval surroundings site key
    let value ← eval surroundings site value
    return (key, value) :: (← evalEntries surroundings site rest)

/-- Whether a value equals the first of some operands and each of them the next. What stands behind
the first difference is not evaluated. -/
def evalEqual (surroundings : Surroundings σ) (site : Site) (value : Value) :
    List Expression → Evaluation σ Bool
  | [] => return true
  | next :: rest => do
    let next ← eval surroundings site next
    if value.equal next then evalEqual surroundings site next rest else return false
end

/-! ### Statements -/

/-- How far the evaluation of a page has come. -/
structure Progress where
  scope : Scope
  blocks : Fields Block
  /-- The templates that have been inherited from so far. -/
  chain : List String := []
  parent : Option Page := none
  output : String := ""

namespace Progress

def print (progress : Progress) (s : String) : Progress :=
  if progress.parent.isSome then progress else { progress with output := progress.output ++ s }

def inner (progress : Progress) : Progress :=
  { progress with parent := none, output := "" }

end Progress

/-- What runs a page or a block inside another: its template, its statements, and whether what it
prints is discarded. -/
abbrev Runner (σ : Type) := String → List Statement → Bool → Progress → Evaluation σ Progress

structure Running (σ : Type) where
  surroundings : Surroundings σ
  run : Runner σ
  template : String
  /-- Whether what is printed is thrown away. -/
  discarded : Bool

def Running.site (running : Running σ) (progress : Progress) : Site :=
  ⟨running.template, progress.scope⟩

def checkDepth (scope : Scope) : Evaluation σ Unit :=
  if scope.tooDeep then complain .evaluationTooDeep else return

def templateName (value : Value) : Evaluation σ String :=
  match value with
  | .text s _ => return s
  | _ => complain .templateNameNotText

/-- What an inclusion tries in turn as the name of a template. What is no data names none. -/
def templateChoices (value : Value) : List Value :=
  match value with
  | .list _ | .map _ | .forState .. => value.elements?.getD []
  | .function _ | .session => []
  | value => [value]

def firstPage? (surroundings : Surroundings σ) : List Value → Evaluation σ (Option Page)
  | [] => return none
  | choice :: rest => do
    let template ← templateName choice
    let page? ← tryCatch (some <$> surroundings.load template) fun fault =>
      if fault.cause = .missingTemplate then return none else throw fault
    match page? with
    | some page => return some page
    | none => firstPage? surroundings rest

/-- Runs the page of an inclusion and prints its output. Its blocks are its own, and a fault in it
is one of the inclusion. -/
def embedPage (running : Running σ) (progress : Progress) (page : Page) :
    Evaluation σ Progress := do
  let scope := { progress.scope with
    included := progress.scope.included + Scope.inclusionWeight }
  checkDepth scope
  let start := { progress.inner with scope, blocks := page.blocks }
  let stop ← tryCatch
    (running.run page.template page.body (running.discarded || progress.parent.isSome) start)
    fun fault => throw (.wrapping (.complaint (.failingInclude page.template)) none fault)
  return { progress with
    scope := { stop.scope with included := progress.scope.included } }.print stop.output

/-- Includes the first template that there is of those a value names. A value that names none
includes nothing. -/
def embed (running : Running σ) (progress : Progress) (value : Value) :
    Evaluation σ Progress := do
  let choices := templateChoices value
  match ← firstPage? running.surroundings choices with
  | some page => embedPage running progress page
  | none =>
    if choices.isEmpty then return progress else throw (.plain .missingTemplate none)

def inherit (running : Running σ) (progress : Progress) (value : Value) :
    Evaluation σ Progress := do
  if progress.parent.isSome then complain .secondParent
  let template ← templateName value
  if progress.chain.contains template then complain (.inheritanceCycle template)
  let page ← running.surroundings.load template
  return { progress with
    blocks := page.blocks.overlay progress.blocks
    chain := page.template :: progress.chain
    parent := some page }

def callBlock (running : Running σ) (progress : Progress) (name : String) :
    Evaluation σ Progress := do
  if running.discarded || progress.parent.isSome then return progress
  match progress.blocks.find? name with
  | none => return progress
  | some block =>
    checkDepth progress.scope
    let start := { progress.inner with scope := progress.scope.enter {} }
    let stop ← running.run block.template block.body false start
    return { stop with scope := stop.scope.leave, parent := none
                       output := progress.output ++ stop.output }

def bindElement (name : Option String) (item : Value) : Evaluation σ (Fields Value) :=
  match name, item with
  | some name, item => return [(name, item)]
  | none, .list [] | none, .map [] => return []
  | none, _ => complain (.custom "an element of a loop without a variable is not empty")

/-- Runs a loop body once for each item, in a fresh frame that holds what is bound for the item. The
numbers are how many items there are, how many loops are around this one, and how many items have
been visited; `previous` is the item visited last. -/
def forItems (length depth : Nat) (bind : Value → Evaluation σ (Fields Value))
    (body : Progress → Evaluation σ Progress) :
    Nat → Value → List Value → Progress → Evaluation σ Progress
  | _, _, [], progress => return progress
  | index, previous, item :: rest, progress => do
    let next := rest.head?.getD .undefined
    let frame : Frame :=
      { locals := ← bind item, loop := some (.forState index length depth previous next) }
    let progress ← body { progress with scope := progress.scope.enter frame }
    forItems length depth bind body (index + 1) item rest
      { progress with scope := progress.scope.leave }

mutual
def exec (running : Running σ) : Statement → Progress → Evaluation σ Progress
  | .text s, progress => return progress.print s
  | .echo value, progress => do
    let value ← eval running.surroundings (running.site progress) value
    return progress.print value.print
  | .set name value, progress => do
    let value ← eval running.surroundings (running.site progress) value
    return { progress with scope := progress.scope.set name value }
  | .conditional condition body otherwise, progress => do
    let value ← eval running.surroundings (running.site progress) condition
    if value.isTrue then execAll running body progress else execAll running otherwise progress
  | .forEach name source body otherwise, progress => do
    let value ← eval running.surroundings (running.site progress) source
    let items ← locate running.template source.line <|
      match value.elements? with
      | some items => do
        checkDepth progress.scope
        return items
      | none => complain .notIterable
    let bind := fun item => locate running.template source.line (bindElement name item)
    let progress ← forItems items.length progress.scope.loopDepth bind (execAll running body)
      0 .undefined items progress
    if items.isEmpty then execAll running otherwise progress else return progress
  | .embed template, progress => do
    let value ← eval running.surroundings (running.site progress) template
    locate running.template template.line (embed running progress value)
  | .inherit template, progress => do
    let value ← eval running.surroundings (running.site progress) template
    locate running.template template.line (inherit running progress value)
  | .block line name _, progress =>
    locate running.template line (callBlock running progress name)

def execAll (running : Running σ) : List Statement → Progress → Evaluation σ Progress
  | [], progress => return progress
  | statement :: rest, progress => do
    execAll running rest (← exec running statement progress)
end

/-- Runs statements and then the pages they extend, each in turn, with so many pages and blocks
inside each other at most. -/
def runWithin (surroundings : Surroundings σ) : Nat → Runner σ
  | 0, _, _, _, _ => complain .evaluationTooDeep
  | levels + 1, template, body, discarded, progress => do
    let run := runWithin surroundings levels
    let progress ← execAll { surroundings, run, template, discarded } body progress
    match progress.parent with
    | none => return progress
    | some page => run page.template page.body discarded { progress with parent := none }

/-- A bound on pages inside each other, far above what the depth limit lets through. -/
def levelLimit : Nat := 10000

def printPage (surroundings : Surroundings σ) (page : Page) (given : Fields Value) :
    Evaluation σ String := do
  let start : Progress :=
    { scope := { given }, blocks := page.blocks }
  let stop ← runWithin surroundings levelLimit page.template page.body false start
  return stop.output

end Evaluation

end ThemeTemplates
