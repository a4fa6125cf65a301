import ThemeTemplates.Directive.Error
import ThemeTemplates.Directive.Function
import ThemeTemplates.Text.Nesting

/-!
# Iteration arguments

`<source> as $<binding>`, in parentheses or bare after the directive's name. The parenthesised form
is cut at the last ` as ` outside literals and brackets; `splitBareIteration` tells how much of the
text after a directive is a bare argument.
-/

namespace ThemeTemplates

def isVariable : List Char → Bool
  | '$' :: c :: rest => isWordStart c && rest.all isWordChar
  | _ => false

/-- What a loop runs over and the variable it binds, sigil included. -/
structure Iteration where
  source : List Char
  binding : List Char
deriving DecidableEq, Repr

namespace Iteration

def boundName (args : Iteration) : List Char :=
  args.binding.dropWhile (· == '$')

/-- Cuts a text at the last ` as ` outside literals and brackets. `before` is the character in front
of the text. -/
def splitAs (n : Nesting) (before : Option Char) : List Char → Option (List Char × List Char)
  | [] => none
  | c :: rest =>
    match splitAs (n.next c) (some c) rest with
    | some (source, binding) => some (c :: source, binding)
    | none =>
      match rest with
      | 's' :: blank :: after =>
        if c == 'a' && n.atTop && before.any isAsciiBlank && isAsciiBlank blank then
          some ([], blank :: after)
        else none
      | _ => none

def ofParts (directive : String) (raw source binding : List Char) :
    Except CompileError Iteration :=
  let source := trim source
  let binding := trim binding
  let refuse (reason : Malformation) := .error (.malformed directive (String.ofList raw) reason)
  if source.isEmpty then refuse .missingSource
  else if !isVariable binding then refuse (.badBinding (String.ofList binding))
  else .ok { source, binding }

/-- Reads `<source> as $<binding>` for a directive that cannot do without it. -/
def parse (directive : String) (raw : List Char) : Except CompileError Iteration :=
  match splitAs {} none (unwrap raw) with
  | some (source, binding) => ofParts directive raw source binding
  | none => .error (.malformed directive (String.ofList raw) .missingAs)

def currentQuery : List Char := PageFunction.call .currentQuery []

def defaultBinding : List Char := "$post".toList

def parseLoop (raw : List Char) : Except CompileError Iteration :=
  let text := unwrap raw
  if text.isEmpty then .ok { source := currentQuery, binding := defaultBinding }
  else
    match splitAs {} none text with
    | some (source, binding) => ofParts "loop" raw source binding
    | none => .ok { source := text, binding := defaultBinding }

end Iteration

def spanSteps : List Char → List Char × List Char
  | '.' :: rest =>
    match rest.takeWhile isWordChar with
    | [] => ([], '.' :: rest)
    | c :: word =>
      let (steps, after) := spanSteps (rest.dropWhile isWordChar)
      ('.' :: c :: word ++ steps, after)
  | text => ([], text)
termination_by text => text.length
decreasing_by
  have := length_dropWhile_le isWordChar rest
  simp only [List.length_cons]
  omega

/-- Splits off a bare ` items as $item` at the start of a text. The source must be a plain variable
path; of the binding only its own characters are taken. -/
def splitBareIteration (text : List Char) : Option (List Char × List Char) := do
  let (gap, text) := text.span isSpaceOrTab
  guard (!gap.isEmpty)
  let (sigil, text) :=
    match text with
    | '$' :: rest => (['$'], rest)
    | _ => ([], text)
  guard (text.head?.any isWordStart)
  let (name, text) := text.span isWordChar
  let (steps, text) := spanSteps text
  let (gap₁, text) := text.span isSpaceOrTab
  guard (!gap₁.isEmpty)
  let text ← ['a', 's'].isPrefixOf? text
  let (gap₂, text) := text.span isSpaceOrTab
  guard (!gap₂.isEmpty)
  let (binding, text) :=
    match text with
    | '$' :: rest => ('$' :: rest.takeWhile isWordChar, rest.dropWhile isWordChar)
    | _ => text.span fun c => !isAsciiBlank c
  guard (!binding.isEmpty)
  return (gap ++ sigil ++ name ++ steps ++ gap₁ ++ ['a', 's'] ++ gap₂ ++ binding, text)

/-- The length in UTF-8 of a bare iteration argument at the start of a text. -/
def bareIterationLength (text : List Char) : Option Nat :=
  (splitBareIteration text).map fun (taken, _) => utf8Length taken

end ThemeTemplates
