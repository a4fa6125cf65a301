import ThemeTemplates.Proofs.Loop.Turns
import ThemeTemplates.Proofs.Page.Contract
import ThemeTemplates.Render.Function

/-!
# Loops taken item by item

A frame visits its items in their order, and what is refused leaves the loops as they are, at the
stack and where a page asks for it: a call that steps or closes a loop and fails keeps the open
loops and the current item.
-/

namespace ThemeTemplates.Render

open Evaluation

variable {σ : Type}

/-- Two states with the same loops and the same current item. -/
structure SameLoops (first second : RenderState σ) : Prop where
  loops : first.session.loops = second.session.loops
  item : first.session.currentItem = second.session.currentItem

/-- An evaluation that, where a fault stops it, has changed neither the loops nor the current
item. -/
def KeepsLoops {α : Type} (evaluation : Evaluation (RenderState σ) α) : Prop :=
  ∀ s, evaluation.Meets (· = s) (fun _ _ => True) fun _ t => SameLoops t s

/-- A check that comes before an evaluation and changes nothing. -/
def Checks {α : Type} (evaluation : Evaluation (RenderState σ) α) : Prop :=
  ∀ s, evaluation.Meets (· = s) (fun _ t => t = s) fun _ t => SameLoops t s

theorem SameLoops.refl (s : RenderState σ) : SameLoops s s :=
  ⟨rfl, rfl⟩

theorem keepsLoops_complain {α : Type} (complaint : Complaint) :
    KeepsLoops (complain complaint : Evaluation (RenderState σ) α) :=
  fun _ => Meets.complain fun _ same => same ▸ .refl _

theorem Checks.bind {α β : Type} {check : Evaluation (RenderState σ) α}
    {next : α → Evaluation (RenderState σ) β} (checks : Checks check)
    (keeps : ∀ value, KeepsLoops (next value)) : KeepsLoops (check >>= next) :=
  fun s => Meets.bind _ (checks s) fun value => keeps value s

theorem checks_checkActive (site : Site) :
    Checks (checkActive site : Evaluation (RenderState σ) Unit) := by
  intro s
  unfold checkActive
  split
  · exact Meets.pure fun _ same => same
  · exact Meets.throw fun _ same => same ▸ .refl _

theorem checks_loopKind (name : String) :
    Checks (loopKind name : Evaluation (RenderState σ) LoopKind) := by
  intro s
  unfold loopKind
  split
  · exact Meets.pure fun _ same => same
  · exact Meets.complain fun _ same => same ▸ .refl _

theorem checks_textArgument (value : Value) :
    Checks (textArgument value : Evaluation (RenderState σ) String) := by
  intro s
  unfold textArgument
  split
  · exact Meets.pure fun _ same => same
  · exact Meets.complain fun _ same => same ▸ .refl _

/-- A change of the loops that the session refuses is kept as a failure, and that is all. -/
theorem keepsLoops_changeLoops (change : Session → Except LoopStackError Session) :
    KeepsLoops (changeLoops change : Evaluation (RenderState σ) Value) := by
  intro s t same
  rw [same]
  unfold changeLoops
  rw [run_get_bind]
  cases change s.session with
  | error error => exact ⟨rfl, rfl⟩
  | ok session =>
      -- reading the metadata that is now in effect cannot fail
      have reads : (loopValue : Evaluation (RenderState σ) Value).Meets (fun _ => True)
          (fun _ _ => True) fun _ t => SameLoops t s := by
        refine Meets.bind (fun _ _ => True) (Meets.get fun _ _ => trivial) fun s => ?_
        split <;> exact Meets.pure fun _ _ => trivial
      exact reads _ trivial

/-- A call that steps or closes a loop, with any arguments, keeps the loops and the current item if
it fails. -/
theorem keepsLoops_callFunction (render : Render σ) (renderer : Renderer σ) (site : Site)
    {function : PageFunction} (steps : function = .loopNext ∨ function = .loopPop)
    (args : List Value) : KeepsLoops (render.callFunction renderer site function args) := by
  rcases steps with rfl | rfl
  · match args with
    | [item, kind] =>
        refine (checks_textArgument kind).bind fun kind =>
          (checks_checkActive site).bind fun _ => ?_
        exact (checks_loopKind kind).bind fun kind => keepsLoops_changeLoops _
    | [] | [_] | _ :: _ :: _ :: _ => exact keepsLoops_complain _
  · match args with
    | [kind] =>
        refine (checks_textArgument kind).bind fun kind =>
          (checks_checkActive site).bind fun _ => ?_
        exact (checks_loopKind kind).bind fun kind => keepsLoops_changeLoops _
    | [] | _ :: _ :: _ => exact keepsLoops_complain _

/-- Each frame is taken through its items once and in order, and what is refused changes nothing.
Open a loop after any changes and go on with any others. The steps of its frame that succeed come to
the items one after the other from the first on, and there are no more of them than items; whenever
the frame is the innermost one, a step of its kind succeeds as long as items are left and is refused
as exhausted behind the last one. At all times a frame that has not started has index zero and no
current item, and one that has stands on the item at its index. A step or a close leaves a stack as
it is exactly if it fails, and one that a page calls for and that fails leaves the loops and the
current item of the render as they are. -/
theorem items_taken_in_order (earlier later : List LoopStack.Change) (kind : LoopKind)
    (items : List Data) (restore : Data) :
    let stack := LoopStack.after earlier
    let opened := stack.push kind items restore
    let moments := LoopStack.turns opened.lastId opened later
    let now := later.foldl LoopStack.apply opened
    moments.length ≤ items.length ∧
    (∀ turn moment, moments[turn]? = some moment → LoopStack.StandsOn kind items turn moment) ∧
    (∀ frame, now.top? = some frame → frame.id = opened.lastId →
      LoopStack.StepsFrom kind items moments.length now) ∧
    (∀ frame ∈ stack.frames, frame.Placed) ∧
    (∀ asked, (stack.apply (.advance asked) = stack ↔ ∃ error, stack.advance asked = .error error) ∧
      (stack.apply (.pop asked) = stack ↔ ∃ error, stack.pop asked = .error error)) ∧
    ∀ (render : Render σ) renderer site function args,
      (function = PageFunction.loopNext ∨ function = PageFunction.loopPop) →
        KeepsLoops (render.callFunction renderer site function args) := by
  have numbered := LoopStack.Numbered.after earlier
  refine ⟨(LoopStack.turns_opening numbered kind items restore later).1,
    fun turn moment => LoopStack.standsOn_turn numbered kind items restore later,
    fun frame => LoopStack.stepsFrom_turns numbered kind items restore later,
    fun frame hmem => LoopFrame.placed_of_iteration_le (LoopStack.Bounded.after earlier frame hmem),
    fun asked => ⟨LoopStack.apply_advance_eq_self_iff _ asked,
      LoopStack.apply_pop_eq_self_iff _ asked⟩,
    ?_⟩
  exact fun render renderer site function args steps =>
    keepsLoops_callFunction render renderer site steps args

end ThemeTemplates.Render
