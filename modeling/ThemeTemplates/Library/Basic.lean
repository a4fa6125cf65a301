import ThemeTemplates.Directive.Basic
import ThemeTemplates.Failure.Fault
import ThemeTemplates.Library.Loader
import ThemeTemplates.Page.Parser
import ThemeTemplates.Source.Expansion

/-!
# Template libraries

A loader together with the directives its sources are written with. Compiling a template loads it,
expands its directives and reads the page; what has been compiled is kept, what failed is not.
-/

namespace ThemeTemplates

structure Library where
  loader : Loader
  directives : Registry

def Fault.ofPageError (template : String) (error : PageError) : Fault :=
  let cause : FaultCause :=
    match error.flaw with
    | .malformed reason => .unreadablePage reason
    | .badEscape => .complaint .badEscape
  .plain cause (some ⟨template, error.line⟩)

namespace Library

def expandSource (library : Library) (template source : String) : Except Failure (List Char) :=
  (ThemeTemplates.expand library.directives source.toList).mapError fun located =>
    .compile template located.line located.error

def expand (library : Library) (template : String) : Except Failure (List Char) := do
  match ← library.loader.load template with
  | none => throw (.templateNotFound template)
  | some source => library.expandSource template source

def compile (library : Library) (template : String) : Except Fault Page := do
  let source? ← (library.loader.load template).mapError fun failure => .carrying failure none
  match source? with
  | none => throw (.plain .missingTemplate none)
  | some source =>
    let code ← (library.expandSource template source).mapError fun failure =>
      .carrying failure none
    (Page.parse template code).mapError (Fault.ofPageError template)

/-- The page of a template, compiled unless that has been done, and the pages compiled by then. -/
def fetch (library : Library) (compiled : Fields Page) (template : String) :
    Except Fault Page × Fields Page :=
  match compiled.find? template with
  | some page => (.ok page, compiled)
  | none =>
    match library.compile template with
    | .ok page => (.ok page, compiled.insert template page)
    | .error fault => (.error fault, compiled)

end Library

end ThemeTemplates
