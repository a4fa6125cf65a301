import ThemeTemplates.Fixture.Host
import ThemeTemplates.Settings.Basic

/-!
# Commands

Rendering a template with a fixture, showing the code it expands to, and checking all templates.
-/

namespace ThemeTemplates

inductive CommandError where
  | unreadableFixture (path : String)
  | invalidFixture (path : String)
  | renderFailed (name : String) (failure : Failure)
  | compileFailed (name : String) (failure : Failure)
  /-- A failure without a context of its own. -/
  | failed (failure : Failure)

namespace CommandError

def context? : CommandError → Option String
  | unreadableFixture path => some s!"failed to read fixture {path}"
  | invalidFixture path => some s!"invalid fixture {path}"
  | renderFailed name _ => some s!"failed to render {name}"
  | compileFailed name _ => some s!"failed to compile {name}"
  | failed _ => none

def failure? : CommandError → Option Failure
  | unreadableFixture _ | invalidFixture _ => none
  | renderFailed _ failure | compileFailed _ failure | failed failure => some failure

def chain (error : CommandError) : List String :=
  error.context?.toList ++
    match error.failure? with
    | some failure => failure.message :: failure.causes
    | none => []

end CommandError

structure CheckReport where
  passed : List String := []
  failed : List (String × Failure) := []

namespace CheckReport

def isOk (report : CheckReport) : Bool :=
  report.failed.isEmpty

def total (report : CheckReport) : Nat :=
  report.passed.length + report.failed.length

end CheckReport

namespace Command

def engine (settings : Settings) (loader : Loader) (fixture : Fixture) : Engine Unit :=
  settings.engine loader fixture.host () (Composer.provider fixture.composers)

/-- The fixture in the content of a file, which is none if there is no such file. -/
def readFixture (path : String) (content : Option ByteArray) : Except CommandError Fixture :=
  match content.bind String.fromUTF8? with
  | none => .error (.unreadableFixture path)
  | some text =>
    match Fixture.read? text with
    | some fixture => .ok fixture
    | none => .error (.invalidFixture path)

variable {σ : Type}

def render (engine : Engine σ) (name : String) (view : Bool) (data : ViewData) :
    Except CommandError String × Engine σ :=
  let (result, engine) := if view then engine.renderView name data else engine.render name data
  (result.mapError (.renderFailed name), engine)

def compile (engine : Engine σ) (name : String) : Except CommandError (List Char) × Engine σ :=
  match engine.expand name with
  | .error failure => (.error (.compileFailed name failure), engine)
  | .ok code =>
    let (result, engine) := engine.compile name
    (result.mapError CommandError.failed |>.map fun _ => code, engine)

def checkEach (engine : Engine σ) : List String → CheckReport × Engine σ
  | [] => ({}, engine)
  | name :: rest =>
    let (result, engine) := engine.compile name
    let (report, engine) := checkEach engine rest
    match result with
    | .ok () => ({ report with passed := name :: report.passed }, engine)
    | .error failure => ({ report with failed := (name, failure) :: report.failed }, engine)

def check (engine : Engine σ) : Except CommandError CheckReport × Engine σ :=
  match engine.library.loader.list with
  | .error failure => (.error (.failed failure), engine)
  | .ok names =>
    let (report, engine) := checkEach engine names
    (.ok report, engine)

end Command

end ThemeTemplates
