import ThemeTemplates.Failure.Fault

/-!
# Failures on their way through the page evaluator

A failure that a fault carries comes out as it went in, however many faults are around it, but for
one thing: the report of a collaborator and the causes behind it come out as one text.
-/

namespace ThemeTemplates

def Fault.within : List (FaultCause × Option Place) → Fault → Fault
  | [], fault => fault
  | (cause, place) :: around, fault => .wrapping cause place (fault.within around)

theorem Fault.carried?_within (around : List (FaultCause × Option Place)) (fault : Fault) :
    (fault.within around).carried? = fault.carried? := by
  induction around with
  | nil => rfl
  | cons layer around ih => exact ih

theorem HostError.chain_eq (source : HostError) :
    source.chain = source.message :: source.chain.tail := by
  cases source <;> rfl

namespace Failure

theorem ofFault_within (failure : Failure) (place : Option Place)
    (around : List (FaultCause × Option Place)) (template : String) :
    ofFault ((Fault.carrying failure place).within around) template = failure.flatten := by
  unfold ofFault
  rw [Fault.carried?_within]
  rfl

theorem compileError?_flatten (failure : Failure) :
    failure.flatten.compileError? = failure.compileError? := by
  cases failure <;> rfl

theorem flatten_flatten (failure : Failure) : failure.flatten.flatten = failure.flatten := by
  cases failure with
  | collaborator function source => simp [flatten, HostError.chain]
  | _ => rfl

theorem flatten_eq_self_iff {failure : Failure} :
    failure.flatten = failure ↔
      ∀ function source, failure = .collaborator function source →
        ∃ text, source = .report text [] := by
  constructor
  · rintro same function source rfl
    exact ⟨_, (collaborator.inj same).2.symm⟩
  · intro plain
    cases failure with
    | collaborator function source =>
        obtain ⟨text, rfl⟩ := plain function source rfl
        simp [flatten, HostError.chain]
    | _ => rfl

theorem message_collaborator (function : String) (source : HostError) :
    (collaborator function source).message = function ++ " failed: " ++ source.message := by
  unfold message
  simp only [toString]

/-- Texts drawn into one look like the first of them only if there are no others. -/
theorem intercalate_eq_head_iff {text : String} {rest : List String} :
    String.intercalate ": " (text :: rest) = text ↔ rest = [] := by
  cases rest with
  | nil => simp
  | cons next rest =>
      have longer : String.intercalate ": " (text :: next :: rest) ≠ text := by
        intro same
        rw [String.intercalate_cons_cons, String.append_assoc] at same
        have lengths := congrArg String.length same
        simp only [String.length_append] at lengths
        have separator : ": ".length = 2 := rfl
        omega
      exact iff_of_false longer (List.cons_ne_nil next rest)

theorem message_flatten_iff {failure : Failure} :
    failure.flatten.message = failure.message ↔
      ∀ function source, failure = .collaborator function source →
      source.chain = [source.message] := by
  cases failure with
  | collaborator function source =>
      unfold flatten
      rw [message_collaborator, message_collaborator, String.append_right_inj]
      show String.intercalate ": " source.chain = source.message ↔ _
      rw [source.chain_eq, intercalate_eq_head_iff]
      constructor
      · rintro alone _ _ ⟨⟩
        rw [source.chain_eq, alone]
      · intro alone
        rw [alone function source rfl]
        rfl
  | _ => simp [flatten]

/-- How a failure comes out of the page evaluator: with the same compile error, and as it went in
unless a collaborator reported it with causes behind the report, which are drawn into its text. -/
theorem ofFault_carrying (failure : Failure) (place : Option Place)
    (around : List (FaultCause × Option Place)) (template : String) :
    let recovered := ofFault ((Fault.carrying failure place).within around) template
    recovered.compileError? = failure.compileError? ∧
      (recovered = failure ↔ ∀ function source, failure = .collaborator function source →
        ∃ text, source = .report text []) ∧
      (recovered.message = failure.message ↔ ∀ function source,
        failure = .collaborator function source → source.chain = [source.message]) ∧
      ∀ function source, failure = .collaborator function source →
        recovered = .collaborator function (.report (": ".intercalate source.chain) []) := by
  intro recovered
  have same : recovered = failure.flatten := ofFault_within failure place around template
  rw [same]
  refine ⟨compileError?_flatten failure, flatten_eq_self_iff, message_flatten_iff, ?_⟩
  rintro function source rfl
  rfl

theorem deepReport_changes :
    (ofFault (.carrying (.collaborator "nav_menu" (.report "menu missing" ["disk full"])) none)
        "t").message = "nav_menu failed: menu missing: disk full" ∧
      (collaborator "nav_menu" (.report "menu missing" ["disk full"])).message =
        "nav_menu failed: menu missing" := by
  decide +kernel

end Failure

end ThemeTemplates
