import ThemeTemplates.Failure.Fault

/-!
# Calm failures

A failure is calm when it is not misuse of the loop stack. Whether anyone asks for that is a
parameter: where nobody does, every failure is calm.
-/

namespace ThemeTemplates

variable {strict : Prop}

/-- If it is asked for, a failure is no misuse of the loop stack. -/
def Failure.Calm (strict : Prop) (failure : Failure) : Prop :=
  strict → ∀ error, failure ≠ .loopStack error

def Fault.Calm (strict : Prop) (fault : Fault) : Prop :=
  ∀ failure, fault.carried? = some failure → failure.Calm strict

/-- What failed did not fail by misuse of the loop stack. -/
def CalmResult {α : Type} (strict : Prop) (result : Except Failure α) : Prop :=
  ∀ failure, result = .error failure → failure.Calm strict

theorem Failure.calm_evaluation (template : String) (line : Nat) (complaint : Complaint) :
    (Failure.evaluation template line complaint).Calm strict :=
  fun _ _ => Failure.noConfusion

theorem Failure.calm_collaborator (function : String) (source : HostError) :
    (Failure.collaborator function source).Calm strict :=
  fun _ _ => Failure.noConfusion

theorem Failure.Calm.flatten {failure : Failure} (h : failure.Calm strict) :
    failure.flatten.Calm strict := by
  intro asked error same
  cases failure with
  | loopStack misuse => exact h asked misuse rfl
  | _ => cases same

namespace Fault

theorem calm_plain (cause : FaultCause) (place : Option Place) :
    (plain cause place).Calm strict := by
  intro failure found
  cases found

theorem calm_ofComplaint (complaint : Complaint) : (ofComplaint complaint).Calm strict :=
  calm_plain _ _

theorem calm_carrying {failure : Failure} (h : failure.Calm strict) (place : Option Place) :
    (carrying failure place).Calm strict := by
  intro carried found
  cases found
  exact h

theorem carried?_located (fault : Fault) (place : Place) :
    (fault.located place).carried? = fault.carried? := by
  unfold located
  split <;> rfl

theorem Calm.located {fault : Fault} (h : fault.Calm strict) (place : Place) :
    (fault.located place).Calm strict := by
  intro failure found
  rw [carried?_located] at found
  exact h failure found

theorem Calm.wrapping {fault : Fault} (h : fault.Calm strict) (cause : FaultCause)
    (place : Option Place) : (wrapping cause place fault).Calm strict :=
  h

end Fault

theorem Failure.calm_ofFault {fault : Fault} (h : fault.Calm strict) (template : String) :
    (Failure.ofFault fault template).Calm strict := by
  unfold Failure.ofFault
  cases carried : fault.carried? with
  | some failure => exact (h failure carried).flatten
  | none =>
      intro _ error same
      cases cause : fault.cause <;> simp [cause] at same

end ThemeTemplates
