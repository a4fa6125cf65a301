import ThemeTemplates.Proofs.Page.Placement
import ThemeTemplates.Render.Function

/-!
# Root renders of an echo between texts

A root render comes to what its page comes to. Text around the only echo of a page is printed around
what the echo prints; the failures it adds lines to are the same.
-/

namespace ThemeTemplates

def Failure.unnumbered : Failure → Failure
  | compile template _ error => compile template 0 error
  | evaluation template _ complaint => evaluation template 0 complaint
  | failure => failure

theorem Failure.unnumbered_ofFault (fault : Fault) (template : String) :
    (ofFault fault template).unnumbered = (ofFault fault.unnumbered template).unnumbered := by
  cases fault with
  | plain cause place => cases cause <;> cases place <;> rfl
  | carrying failure place => rfl
  | wrapping cause place inner =>
      cases carried : inner.carried? with
      | some failure => simp [ofFault, Fault.carried?, Fault.unnumbered, carried]
      | none =>
          simp only [ofFault, Fault.carried?, Fault.unnumbered, Fault.cause, Fault.place?, carried]
          cases cause <;> cases place <;> rfl

namespace Render

variable {σ : Type} {render : Render σ} {page : Page} {data : ViewData} {start stop : RenderState σ}

theorem root_of_output {output : String}
    (ran : (Evaluation.printPage (render.surroundings (render.renderWithin Session.depthLimit)) page
      (context data)).run.run start = (.ok output, stop)) :
    (render.root page data).run start =
      (((stop.session.loops.verify LoopStack.empty.checkpoint).mapError Failure.loopStack).map
        fun _ => output, stop) := by
  simp only [root, StateT.run_bind, ran]
  change (StateT.run (get >>= _) stop : Id _) = _
  simp only [StateT.run_bind, StateT.run_get, pure_bind]
  cases stop.session.loops.verify LoopStack.empty.checkpoint <;> rfl

theorem root_of_fault {fault : Fault}
    (ran : (Evaluation.printPage (render.surroundings (render.renderWithin Session.depthLimit)) page
      (context data)).run.run start = (.error fault, stop)) :
    (render.root page data).run start =
      (.error ((takeFailure page.template fault).run stop).1,
        ((takeFailure page.template fault).run stop).2) := by
  simp only [root, StateT.run_bind, ran]
  rfl

def outcome (render : Render σ) (page : Page) (data : ViewData) (start : RenderState σ) :
    Except Failure String × RenderState σ :=
  let (result, stop) := (render.root page data).run start
  (result.mapError Failure.unnumbered, stop)

theorem outcome_between (render : Render σ) (template : String) (before after : List Char)
    (f : Nat → Nat) (e : Expression) (data : ViewData) (start : RenderState σ) :
    render.outcome ⟨template, Evaluation.texts before ++ .echo (e.relabel f) ::
        Evaluation.texts after⟩ data start =
      ((render.outcome ⟨template, [.echo e]⟩ data start).1.map
        fun output => String.ofList before ++ output ++ String.ofList after,
        (render.outcome ⟨template, [.echo e]⟩ data start).2) := by
  have alike := Evaluation.printPage_between
    (render.surroundings (render.renderWithin Session.depthLimit)) template before after f e
    (context data) start
  unfold Evaluation.outcome at alike
  rw [Evaluation.run_bind] at alike
  unfold outcome
  cases whole : (Evaluation.printPage
      (render.surroundings (render.renderWithin Session.depthLimit)) ⟨template,
        Evaluation.texts before ++ .echo (e.relabel f) :: Evaluation.texts after⟩
      (context data)).run.run start with
  | mk result stop =>
  cases alone : (Evaluation.printPage (render.surroundings (render.renderWithin Session.depthLimit))
      ⟨template, [.echo e]⟩ (context data)).run.run start with
  | mk result' stop' =>
  rw [whole, alone] at alike
  cases result with
  | ok output =>
      cases result' with
      | ok output' =>
          cases alike
          rw [root_of_output whole, root_of_output alone]
          cases stop.session.loops.verify LoopStack.empty.checkpoint <;> rfl
      | error fault' => cases alike
  | error fault =>
      cases result' with
      | ok output' => cases alike
      | error fault' =>
          obtain ⟨faults, rfl⟩ := Prod.mk.inj alike
          rw [root_of_fault whole, root_of_fault alone]
          have same : fault.unnumbered = fault'.unnumbered := by
            simpa [Except.mapError] using faults
          have failures : (Failure.ofFault fault template).unnumbered =
              (Failure.ofFault fault' template).unnumbered := by
            rw [Failure.unnumbered_ofFault, same, ← Failure.unnumbered_ofFault]
          have taken : ∀ fault, (takeFailure template fault).run stop =
              (stop.session.failure.getD (Failure.ofFault fault template),
                { stop with session := { stop.session with failure := none } }) := fun _ => rfl
          simp only [taken, Except.mapError, Except.map]
          cases stop.session.failure with
          | some kept => rfl
          | none => simp only [Option.getD_none, failures]

end Render

end ThemeTemplates
