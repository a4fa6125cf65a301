import ThemeTemplates.Directive.Error
import ThemeTemplates.Failure.Complaint
import ThemeTemplates.Loop.Stack

/-!
# Failures

Everything a render, a compilation or a set-up can fail with. A collaborator's own error is kept as
it came, and such an error may be a failure itself, as when a host renders a partial and hands its
failure on. `Failure.chain` is the text of a failure followed by the texts of its causes.
-/

namespace ThemeTemplates

mutual
inductive Failure where
  | compile (template : String) (line : Nat) (error : CompileError)
  | templateNotFound (name : String)
  /-- A template exists and cannot be read. -/
  | unreadable (name reason : String)
  | loopStack (error : LoopStackError)
  /-- A function of the directives called by a page that belongs to no render. -/
  | noActiveRender (template : String)
  /-- A page stops with a complaint at a line. -/
  | evaluation (template : String) (line : Nat) (complaint : Complaint)
  | collaborator (function : String) (source : HostError)
  | configuration (reason : String)

inductive HostError where
  /-- A text of its own, and the texts of the causes behind it. -/
  | report (text : String) (causes : List String)
  | failure (failure : Failure)
end

instance : Inhabited Failure := ⟨.templateNotFound ""⟩

mutual
def Failure.message : Failure → String
  | .compile template line error => s!"{template}:{line}: {error.message}"
  | .templateNotFound name => s!"template not found: {name}"
  | .unreadable name reason => s!"failed to read template '{name}': {reason}"
  | .loopStack error => s!"loop stack invariant violated: {error.message}"
  | .noActiveRender template =>
    s!"child render of '{template}' requested outside an active render"
  | .evaluation template line complaint =>
    s!"error rendering '{template}' at line {line}: {complaint.message}"
  | .collaborator function source => s!"{function} failed: {source.message}"
  | .configuration reason => s!"Configuration error: {reason}"

def HostError.message : HostError → String
  | .report text _ => text
  | .failure failure => failure.message
end

mutual
def Failure.causes : Failure → List String
  | .unreadable _ reason => [reason]
  | .loopStack error => [error.message]
  | .collaborator _ source => source.chain
  | _ => []

def HostError.chain : HostError → List String
  | .report text causes => text :: causes
  | .failure failure => failure.message :: failure.causes
end

/-- A failure with the report of a collaborator drawn into one text, causes after colons. -/
def Failure.flatten : Failure → Failure
  | collaborator function source =>
    collaborator function (.report (String.intercalate ": " source.chain) [])
  | failure => failure

def Failure.compileError? : Failure → Option CompileError
  | compile _ _ error => some error
  | _ => none

end ThemeTemplates
