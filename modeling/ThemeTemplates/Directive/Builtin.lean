import ThemeTemplates.Argument.Iteration
import ThemeTemplates.Argument.PartialCall
import ThemeTemplates.Argument.Sigil
import ThemeTemplates.Directive.Basic
import ThemeTemplates.Directive.Emitted
import ThemeTemplates.Directive.Function
import ThemeTemplates.Loop.Kind

/-!
# Built-in directives

Each expander reads its arguments and answers with tags of the page language. The tags call
functions whose names begin with two underscores; they keep the loop stack and ask the site.
-/

namespace ThemeTemplates

namespace Builtin

def commaSeparated (first second : List Char) : List Char :=
  first ++ ", ".toList ++ second

/-- The variable that holds the metadata of the innermost loop. -/
def loopVariable : List Char := "blade_loop".toList

def setLoopVariable (value : List Char) : Tag :=
  .statement ("set ".toList ++ loopVariable ++ " = ".toList ++ value)

def kindLiteral (kind : LoopKind) : List Char :=
  encodeLiteral kind.name.toList

/-- Opens a loop: a `for` over the items of a new frame, and a step of that frame in each turn. -/
def openLoop (kind : LoopKind) (args : Iteration) : List Tag :=
  let items :=
    PageFunction.call .loopPush (commaSeparated (pageExpression args.source) (kindLiteral kind))
  let step := PageFunction.call .loopNext (commaSeparated args.boundName (kindLiteral kind))
  [.statement ("for ".toList ++ args.boundName ++ " in ".toList ++ items), setLoopVariable step]

def refuse (directive : String) (args : List Char) (reason : Malformation) :
    Except CompileError (List Tag) :=
  .error (.malformed directive (String.ofList args) reason)

def withoutArguments (directive : String) (tags : List Tag) (args : List Char) :
    Except CompileError (List Tag) :=
  if (unwrap args).isEmpty then .ok tags else refuse directive args .unexpectedArguments

def closeLoop (directive : String) (kind : LoopKind) : List Char → Except CompileError (List Tag) :=
  withoutArguments directive
    [.statement "endfor".toList, setLoopVariable (PageFunction.call .loopPop (kindLiteral kind))]

def loop (args : List Char) : Except CompileError (List Tag) := do
  return openLoop .loop (← Iteration.parseLoop args)

/-- `@simplemenu($menu as $item)`: a loop over the items of a menu of the site. -/
def simpleMenu (args : List Char) : Except CompileError (List Tag) := do
  let iteration ← Iteration.parse "simplemenu" args
  return openLoop .simpleMenu
    { iteration with source := PageFunction.call .navMenu iteration.source }

def noFields : List Char := ['{', '}']

def childPartial (args : List Char) : Except CompileError (List Tag) := do
  let child ← PartialCall.parse args
  let name := encodeLiteral ("partials.".toList ++ child.name)
  let data := (child.data.map pageExpression).getD noFields
  return [.echo (PageFunction.call .renderChild (commaSeparated name data))]

def postTypePartial : List Char → Except CompileError (List Tag) :=
  withoutArguments "posttypepartial"
    [.echo (PageFunction.call .renderChild
      (commaSeparated ("'partials.post-type.' ~ ".toList ++ PageFunction.call .postType [])
        ("\x7b'post': ".toList ++ PageFunction.call .currentItem [] ++ ['}'])))]

def paginate (args : List Char) : Except CompileError (List Tag) :=
  let config := unwrap args
  if (splitTopLevel ',' config).length > 1 then refuse "paginate" args .tooManyConfigurations
  else
    let config := if config.isEmpty then noFields else pageExpression config
    .ok [.echo (PageFunction.call .paginate config)]

def setPostData (args : List Char) : Except CompileError (List Tag) :=
  let item := unwrap args
  if item.isEmpty then refuse "setpostdata" args .missingItem
  else .ok [.echo (PageFunction.call .setCurrentItem (pageExpression item))]

def resetPostData : List Char → Except CompileError (List Tag) :=
  withoutArguments "resetpostdata" [.echo (PageFunction.call .resetCurrentItem [])]

def permission (keyword directive : String) (check : PageFunction) (negated : Bool)
    (args : List Char) : Except CompileError (List Tag) :=
  let abilities := unwrap args
  if abilities.isEmpty then refuse directive args .missingAbility
  else
    let test := check.call (pageExpression abilities)
    let test := if negated then "not ".toList ++ test else test
    .ok [.statement (keyword.toList ++ ' ' :: test)]

def condition : String → PageFunction → Bool → List Char → Except CompileError (List Tag) :=
  permission "if"

/-- `@elsecan('action', subject)` and its like: the next branch of a conditional block. -/
def alternative : String → PageFunction → Bool → List Char → Except CompileError (List Tag) :=
  permission "elif"

def endIf (directive : String) : List Char → Except CompileError (List Tag) :=
  withoutArguments directive [.statement "endif".toList]

/-- `@auth` and `@guest`: opens a block for users who are, or are not, signed in. -/
def signedIn (directive keyword : String) : List Char → Except CompileError (List Tag) :=
  withoutArguments directive
    [.statement (keyword.toList ++ ' ' :: PageFunction.call .auth [])]

def passThrough (name : String) (args : List Char) : Except CompileError (List Tag) :=
  let args := unwrap args
  let name := encodeLiteral name.toList
  .ok [.echo (PageFunction.call .invoke
    (if args.isEmpty then name else commaSeparated name (pageExpression args)))]

def passThroughNames : List String :=
  ["wphead", "wpfooter", "sidebar", "action", "thecontent", "theexcerpt", "navmenu", "searchform"]

def directive (name : String) (role : Role)
    (tags : List Char → Except CompileError (List Tag)) : Directive where
  name := name
  role := role
  expand := fun args => (tags args).map printTags

def inlineDirective (name : String)
    (tags : List Char → Except CompileError (List Tag)) : Directive :=
  directive name .inline tags

/-- A directive that opens a loop, whose arguments may stand without parentheses. -/
def iterationDirective (name : String)
    (tags : List Char → Except CompileError (List Tag)) : Directive :=
  { directive name (.opens name) tags with bareIteration := true }

def directives : List Directive :=
  [iterationDirective "loop" loop,
    directive "endloop" (.closes "loop") (closeLoop "endloop" .loop),
    iterationDirective "simplemenu" simpleMenu,
    directive "endsimplemenu" (.closes "simplemenu") (closeLoop "endsimplemenu" .simpleMenu),
    inlineDirective "partial" childPartial,
    inlineDirective "posttypepartial" postTypePartial,
    inlineDirective "paginate" paginate,
    inlineDirective "setpostdata" setPostData,
    inlineDirective "resetpostdata" resetPostData,
    directive "can" (.opens "can") (condition "can" .can false),
    directive "elsecan" (.continues "can") (alternative "elsecan" .can false),
    directive "endcan" (.closes "can") (endIf "endcan"),
    directive "cannot" (.opens "cannot") (condition "cannot" .can true),
    directive "elsecannot" (.continues "cannot") (alternative "elsecannot" .can true),
    directive "endcannot" (.closes "cannot") (endIf "endcannot"),
    directive "canany" (.opens "canany") (condition "canany" .canAny false),
    directive "endcanany" (.closes "canany") (endIf "endcanany"),
    directive "auth" (.opens "auth") (signedIn "auth" "if"),
    directive "endauth" (.closes "auth") (endIf "endauth"),
    directive "guest" (.opens "guest") (signedIn "guest" "if not"),
    directive "endguest" (.closes "guest") (endIf "endguest")] ++
  passThroughNames.map fun name => inlineDirective name (passThrough name)

end Builtin

def Registry.builtin : Registry :=
  Registry.ofList Builtin.directives

end ThemeTemplates
