import ThemeTemplates.Proofs.Page.Contract
import ThemeTemplates.Proofs.Page.Relabelling

/-!
# Expressions evaluated elsewhere in a page

The lines of an expression tell where its faults are met, and nothing else: on other lines it comes
to the same value, or stops with the same fault on another line, and does the same to the state. An
echo between texts prints what it prints by itself.
-/

namespace ThemeTemplates

def Place.unnumbered (place : Place) : Place :=
  { place with line := 0 }

def Fault.unnumbered : Fault → Fault
  | plain cause place => plain cause (place.map Place.unnumbered)
  | carrying failure place => carrying failure (place.map Place.unnumbered)
  | wrapping cause place inner => wrapping cause (place.map Place.unnumbered) inner

theorem Fault.unnumbered_located (fault : Fault) (template : String) (line : Nat) :
    (fault.located ⟨template, line⟩).unnumbered = fault.unnumbered.located ⟨template, 0⟩ := by
  cases fault with
  | plain _ known => cases known <;> rfl
  | carrying _ known => cases known <;> rfl
  | wrapping _ known _ => cases known <;> rfl

namespace Evaluation

variable {σ α β : Type}

def outcome (evaluation : Evaluation σ α) (s : σ) : Except Fault α × σ :=
  ((evaluation.run.run s).1.mapError Fault.unnumbered, (evaluation.run.run s).2)

/-- Two evaluations that come to the same on whatever lines they stand. -/
def Alike (first second : Evaluation σ α) : Prop :=
  ∀ s, first.outcome s = second.outcome s

namespace Alike

variable {first second : Evaluation σ α}

theorem refl (evaluation : Evaluation σ α) : Alike evaluation evaluation :=
  fun _ => rfl

theorem bind (h : Alike first second) {next next' : α → Evaluation σ β}
    (hnext : ∀ a, Alike (next a) (next' a)) : Alike (first >>= next) (second >>= next') := by
  intro s
  have same := h s
  unfold outcome at same ⊢
  rw [run_bind, run_bind]
  cases ran : first.run.run s with
  | mk result t =>
      cases ran' : second.run.run s with
      | mk result' t' =>
          rw [ran, ran'] at same
          obtain ⟨results, rfl⟩ := Prod.mk.inj same
          cases result with
          | ok a =>
              cases result' with
              | ok b =>
                  cases results
                  exact hnext a t
              | error fault => cases results
          | error fault =>
              cases result' with
              | ok b => cases results
              | error fault' => exact congrArg (fun result => (result, t)) (by
                  simpa [Except.mapError] using results)

theorem locate (h : Alike first second) (template : String) (line line' : Nat) :
    Alike (Evaluation.locate template line first) (Evaluation.locate template line' second) := by
  intro s
  have same := h s
  unfold outcome at same ⊢
  unfold Evaluation.locate
  rw [run_tryCatch, run_tryCatch]
  cases ran : first.run.run s with
  | mk result t =>
      cases ran' : second.run.run s with
      | mk result' t' =>
          rw [ran, ran'] at same
          obtain ⟨results, rfl⟩ := Prod.mk.inj same
          cases result with
          | ok a =>
              cases result' with
              | ok b =>
                  cases results
                  rfl
              | error fault => cases results
          | error fault =>
              cases result' with
              | ok b => cases results
              | error fault' =>
                  have unnumbered : fault.unnumbered = fault'.unnumbered := by
                    simpa [Except.mapError] using results
                  have located : (fault.located ⟨template, line⟩).unnumbered =
                      (fault'.located ⟨template, line'⟩).unnumbered := by
                    rw [Fault.unnumbered_located, Fault.unnumbered_located, unnumbered]
                  exact congrArg (fun fault => (Except.error fault, t)) located

end Alike

open Expression

section

variable (surroundings : Surroundings σ) (site : Site) (f : Nat → Nat)

mutual
theorem eval_relabel (e : Expression) :
    Alike (eval surroundings site (relabel f e)) (eval surroundings site e) := by
  cases e with
  | constant line value => exact .refl _
  | named line name => exact .refl _
  | list line items => exact (evalAll_relabel items).bind fun _ => .refl _
  | map line entries => exact (evalEntries_relabel entries).bind fun _ => .refl _
  | field base name => exact (eval_relabel base).bind fun _ => .refl _
  | element base key =>
      exact (eval_relabel base).bind fun _ => (eval_relabel key).bind fun _ => .refl _
  | call line function args =>
      exact (evalAll_relabel args).bind fun _ => Alike.locate (.refl _) _ _ _
  | apply line base args =>
      exact (eval_relabel base).bind fun _ => (evalAll_relabel args).bind fun _ =>
        Alike.locate (.refl _) _ _ _
  | filter line base name args =>
      exact (eval_relabel base).bind fun _ => (evalAll_relabel args).bind fun _ =>
        Alike.locate (.refl _) _ _ _
  | test line base name args =>
      exact (eval_relabel base).bind fun _ => (evalAll_relabel args).bind fun _ =>
        Alike.locate (.refl _) _ _ _
  | not operand => exact (eval_relabel operand).bind fun _ => .refl _
  | negate line operand =>
      refine (eval_relabel operand).bind fun value => ?_
      cases value.negate? with
      | some value => exact .refl _
      | none => exact Alike.locate (.refl _) _ _ _
  | equal first others =>
      exact (eval_relabel first).bind fun value => (evalEqual_relabel others value).bind fun _ =>
        .refl _
  | sum left right =>
      refine (eval_relabel left).bind fun first => (eval_relabel right).bind fun second => ?_
      cases first.sum? second with
      | some value => exact .refl _
      | none => exact Alike.locate (.refl _) _ _ _
  | join left right =>
      exact (eval_relabel left).bind fun _ => (eval_relabel right).bind fun _ => .refl _

theorem evalAll_relabel (items : List Expression) :
    Alike (evalAll surroundings site (relabelAll f items)) (evalAll surroundings site items) := by
  cases items with
  | nil => exact .refl _
  | cons first rest =>
      exact (eval_relabel first).bind fun _ => (evalAll_relabel rest).bind fun _ => .refl _

theorem evalEntries_relabel (entries : List (Expression × Expression)) :
    Alike (evalEntries surroundings site (relabelEntries f entries))
      (evalEntries surroundings site entries) := by
  cases entries with
  | nil => exact .refl _
  | cons first rest =>
      obtain ⟨key, value⟩ := first
      exact (eval_relabel key).bind fun _ => (eval_relabel value).bind fun _ =>
        (evalEntries_relabel rest).bind fun _ => .refl _

theorem evalEqual_relabel (operands : List Expression) (value : Value) :
    Alike (evalEqual surroundings site value (relabelAll f operands))
      (evalEqual surroundings site value operands) := by
  cases operands with
  | nil => exact .refl _
  | cons first rest =>
      refine (eval_relabel first).bind fun next => ?_
      by_cases same : value.equal next = true
      · simp only [same, if_true]
        exact evalEqual_relabel rest next
      · simp only [same]
        exact .refl _
end

end

/-! ### Pages -/

def texts (text : List Char) : List Statement :=
  if text.isEmpty then [] else [.text (String.ofList text)]

theorem execAll_texts (running : Running σ) (text : List Char) (rest : List Statement)
    {progress : Progress} (noParent : progress.parent = none) :
    execAll running (texts text ++ rest) progress =
      execAll running rest { progress with output := progress.output ++ String.ofList text } := by
  cases text with
  | nil =>
      have same : progress.output ++ String.ofList [] = progress.output := String.append_empty
      rw [same]
      rfl
  | cons c text =>
      have printed : progress.print (String.ofList (c :: text)) =
          { progress with output := progress.output ++ String.ofList (c :: text) } := by
        simp [Progress.print, noParent]
      show (exec running (.text (String.ofList (c :: text))) progress >>= execAll running rest) = _
      rw [← printed]
      rfl

theorem execAll_echo (running : Running σ) (before after : List Char) (e : Expression)
    {progress : Progress} (noParent : progress.parent = none) :
    execAll running (texts before ++ .echo e :: texts after) progress = (do
      let value ← eval running.surroundings (running.site progress) e
      return { progress with
        output := progress.output ++ String.ofList before ++ value.print ++
          String.ofList after }) := by
  rw [execAll_texts running before _ noParent]
  simp only [execAll, exec, bind_assoc, pure_bind]
  refine bind_congr fun value => ?_
  set printed : Progress :=
    { progress with output := progress.output ++ String.ofList before ++ value.print } with same
  have last := execAll_texts running after [] (show printed.parent = none from noParent)
  rw [List.append_nil] at last
  simpa [Progress.print, noParent, execAll, same] using last

theorem printPage_echo (surroundings : Surroundings σ) (template : String)
    (before after : List Char) (e : Expression) (given : Fields Value) :
    printPage surroundings ⟨template, texts before ++ .echo e :: texts after⟩ given = (do
      let value ← eval surroundings ⟨template, { given }⟩ e
      return String.ofList before ++ value.print ++ String.ofList after) := by
  obtain ⟨levels, positive⟩ : ∃ levels, levelLimit = levels + 1 := ⟨9999, rfl⟩
  unfold printPage
  simp only [positive, runWithin, execAll_echo, bind_assoc, pure_bind, String.empty_append]
  rfl

/-- An echo between texts prints what it prints by itself between them, on whatever lines it
stands. -/
theorem printPage_between (surroundings : Surroundings σ) (template : String)
    (before after : List Char) (f : Nat → Nat) (e : Expression) (given : Fields Value) :
    Alike (printPage surroundings ⟨template, texts before ++ .echo (e.relabel f) :: texts after⟩
      given)
      (do
        let output ← printPage surroundings ⟨template, [.echo e]⟩ given
        return String.ofList before ++ output ++ String.ofList after) := by
  have alone := printPage_echo surroundings template [] [] e given
  have outputs : ∀ value : Value, String.ofList [] ++ value.print ++ String.ofList [] =
      value.print :=
    fun value => by rw [String.append_empty, String.empty_append]
  simp only [outputs] at alone
  rw [printPage_echo, show [Statement.echo e] = texts [] ++ .echo e :: texts [] from rfl, alone,
    bind_assoc]
  simp only [pure_bind]
  exact (eval_relabel surroundings _ f e).bind fun _ => .refl _

end Evaluation

end ThemeTemplates
