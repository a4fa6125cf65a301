import ThemeTemplates.Failure.Basic

/-!
# Faults

What stops a page travels through the page evaluator as a fault: a cause and the place it was met,
with the failure it carries or the fault of an included page behind it. `Failure.ofFault` tells what
a render fails with.
-/

namespace ThemeTemplates

structure Place where
  template : String
  line : Nat
deriving DecidableEq, Repr

inductive FaultCause where
  | missingTemplate
  | unreadablePage (reason : String)
  | complaint (complaint : Complaint)
deriving DecidableEq, Repr

inductive Fault where
  | plain (cause : FaultCause) (place : Option Place)
  /-- A failure of the engine on its way to the root of a render. -/
  | carrying (failure : Failure) (place : Option Place)
  /-- A fault met on behalf of another page. -/
  | wrapping (cause : FaultCause) (place : Option Place) (inner : Fault)

namespace Fault

def ofComplaint (complaint : Complaint) : Fault :=
  .plain (.complaint complaint) none

def carried? : Fault → Option Failure
  | plain _ _ => none
  | carrying failure _ => some failure
  | wrapping _ _ inner => inner.carried?

def cause : Fault → FaultCause
  | plain cause _ => cause
  | carrying failure _ => .complaint (.custom failure.message)
  | wrapping cause _ _ => cause

def place? : Fault → Option Place
  | plain _ place => place
  | carrying _ place => place
  | wrapping _ place _ => place

def located (fault : Fault) (place : Place) : Fault :=
  match fault with
  | plain cause none => plain cause (some place)
  | carrying failure none => carrying failure (some place)
  | wrapping cause none inner => wrapping cause (some place) inner
  | fault => fault

end Fault

/-- What the render of `template` fails with. A failure carried by the fault comes out as it went
in, its collaborator's report drawn into one text. -/
def Failure.ofFault (fault : Fault) (template : String) : Failure :=
  match fault.carried? with
  | some failure => failure.flatten
  | none =>
    let place := fault.place?.getD ⟨template, 0⟩
    match fault.cause with
    | .missingTemplate => .templateNotFound template
    | .unreadablePage reason => .compile place.template place.line (.invalid (.page reason))
    | .complaint complaint => .evaluation place.template place.line complaint

end ThemeTemplates
