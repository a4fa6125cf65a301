import Mathlib.Data.List.Induction
import Mathlib.Logic.Function.Iterate
import ThemeTemplates.Proofs.Loop.Changes

/-!
# Frames through changes

What one change does to the frames of a stack, failures included: it opens a frame that has not
started, moves the innermost one on to its next item, takes some away from the inside, or leaves all
as they are. No loop is ever past its last item.
-/

namespace ThemeTemplates

namespace LoopFrame

variable (frame : LoopFrame)

def step : LoopFrame :=
  { frame with position := some frame.iteration }

@[simp] theorem id_step : frame.step.id = frame.id := rfl

@[simp] theorem items_step : frame.step.items = frame.items := rfl

@[simp] theorem iteration_step : frame.step.iteration = frame.iteration + 1 := rfl

structure SameLoop (first second : LoopFrame) : Prop where
  id : first.id = second.id
  kind : first.kind = second.kind
  items : first.items = second.items
  restore : first.restore = second.restore

theorem SameLoop.refl : SameLoop frame frame :=
  ⟨rfl, rfl, rfl, rfl⟩

theorem SameLoop.step {first second : LoopFrame} (same : SameLoop first second) :
    SameLoop first.step second :=
  ⟨same.id, same.kind, same.items, same.restore⟩

theorem sameLoop_iterate (steps : Nat) : SameLoop (LoopFrame.step^[steps] frame) frame := by
  induction steps with
  | zero => exact .refl frame
  | succ steps ih =>
      rw [Function.iterate_succ_apply']
      exact ih.step

theorem iteration_iterate (steps : Nat) :
    (LoopFrame.step^[steps] frame).iteration = frame.iteration + steps := by
  induction steps with
  | zero => rfl
  | succ steps ih =>
      rw [Function.iterate_succ_apply', iteration_step, ih]
      rfl

theorem position_iterate (steps : Nat) :
    (LoopFrame.step^[steps + 1] frame).position = some (frame.iteration + steps) := by
  rw [Function.iterate_succ_apply', step, iteration_iterate]

/-- Where a frame can stand: nowhere, with index zero and without a current item, or on the item at
its index. -/
structure Placed : Prop where
  unstarted : frame.position = none → frame.index = 0 ∧ frame.current? = none
  started : frame.position.isSome = true → ∃ item, frame.index < frame.items.length ∧
    frame.items[frame.index]? = some item ∧ frame.current? = some item

theorem placed_of_iteration_le {frame : LoopFrame}
    (bounded : frame.iteration ≤ frame.items.length) :
    frame.Placed := by
  unfold iteration at bounded
  constructor
  · intro nowhere
    simp only [index, current?, nowhere, Option.getD_none, Option.bind_none, and_self]
  · intro started
    obtain ⟨position, stands⟩ := Option.isSome_iff_exists.mp started
    rw [stands] at bounded
    refine ⟨frame.items[position], ?_⟩
    simp only [index, current?, stands, Option.getD_some, Option.bind_some]
    exact ⟨bounded, List.getElem?_eq_getElem bounded, List.getElem?_eq_getElem bounded⟩

end LoopFrame

namespace LoopStack

variable {stack : LoopStack} {kind : LoopKind} {frame : LoopFrame} {outer : List LoopFrame}

/-! ### Steps and closes -/

theorem advance_of_kind_ne (shape : stack.frames = frame :: outer) (other : frame.kind ≠ kind) :
    stack.advance kind = .error (.kindMismatch kind frame.kind) := by
  unfold advance topOfKind
  simp only [shape, beq_iff_eq, other, if_false]
  rfl

theorem advance_of_room (shape : stack.frames = frame :: outer)
    (room : frame.iteration < frame.items.length) :
    stack.advance frame.kind = .ok { stack with frames := frame.step :: outer } := by
  unfold advance topOfKind
  simp only [shape, beq_self_eq_true, if_true]
  exact if_pos room

theorem advance_of_full (shape : stack.frames = frame :: outer)
    (full : frame.items.length ≤ frame.iteration) :
    stack.advance frame.kind = .error (.exhausted frame.kind frame.items.length) := by
  unfold advance topOfKind
  simp only [shape, beq_self_eq_true, if_true]
  exact if_neg (Nat.not_lt.mpr full)

theorem pop_of_kind (shape : stack.frames = frame :: outer) :
    stack.pop frame.kind = .ok (frame, { stack with frames := outer }) := by
  unfold pop topOfKind
  simp only [shape, beq_self_eq_true, if_true]
  rfl

/-! ### Effects -/

def opening (stack : LoopStack) (kind : LoopKind) (items : List Data) (restore : Data) :
    LoopFrame where
  id := stack.lastId + 1
  kind := kind
  items := items
  position := none
  restore := restore

/-- The frames after a change, by what it does. -/
inductive Effect (stack : LoopStack) : Change → List LoopFrame → Prop
  | opens (kind : LoopKind) (items : List Data) (restore : Data) :
    Effect stack (.push kind items restore) (stack.opening kind items restore :: stack.frames)
  | moves {frame : LoopFrame} {outer : List LoopFrame} (shape : stack.frames = frame :: outer)
    (room : frame.iteration < frame.items.length) :
    Effect stack (.advance frame.kind) (frame.step :: outer)
  | closes {frame : LoopFrame} {outer : List LoopFrame} (shape : stack.frames = frame :: outer) :
    Effect stack (.pop frame.kind) outer
  | unwinds (mark : Checkpoint) :
    Effect stack (.unwind mark) (stack.frames.drop (stack.depth - mark.depth))
  | refusesStep {kind : LoopKind} {error : LoopStackError}
      (refused : stack.advance kind = .error error) :
    Effect stack (.advance kind) stack.frames
  | refusesClose {kind : LoopKind} {error : LoopStackError}
      (refused : stack.pop kind = .error error) :
    Effect stack (.pop kind) stack.frames

theorem effect_apply (stack : LoopStack) (change : Change) :
    Effect stack change (stack.apply change).frames := by
  cases change with
  | push kind items restore => exact .opens kind items restore
  | unwind mark => exact .unwinds mark
  | advance kind =>
      cases stepped : stack.advance kind with
      | error error =>
          simp only [apply, stepped]
          exact .refusesStep stepped
      | ok next =>
          obtain ⟨frame, outer, shape, rfl, room, rfl⟩ := advance_eq_ok stepped
          simp only [apply, stepped]
          exact .moves shape room
  | pop kind =>
      cases closed : stack.pop kind with
      | error error =>
          simp only [apply, closed]
          exact .refusesClose closed
      | ok found =>
          obtain ⟨shape, rfl, -⟩ := pop_eq_ok closed
          simp only [apply, closed]
          exact .closes shape

/-! ### Loops stay within their items -/

/-- No loop of a stack has reached more items than it has. -/
def Bounded (stack : LoopStack) : Prop :=
  ∀ frame ∈ stack.frames, frame.iteration ≤ frame.items.length

namespace Bounded

theorem apply (bounded : stack.Bounded) (change : Change) : (stack.apply change).Bounded := by
  have effect := stack.effect_apply change
  unfold Bounded
  generalize (stack.apply change).frames = frames at effect
  cases effect with
  | opens =>
      rintro _ (_ | ⟨_, hmem⟩)
      · exact Nat.zero_le _
      · exact bounded _ hmem
  | moves shape room =>
      rintro _ (_ | ⟨_, hmem⟩)
      · exact room
      · exact bounded _ (shape ▸ List.mem_cons_of_mem _ hmem)
  | closes shape => exact fun _ hmem => bounded _ (shape ▸ List.mem_cons_of_mem _ hmem)
  | unwinds => exact fun _ hmem => bounded _ (List.mem_of_mem_drop hmem)
  | refusesStep | refusesClose => exact bounded

theorem after (changes : List Change) : (after changes).Bounded := by
  induction changes using List.reverseRecOn with
  | nil => exact fun _ hmem => nomatch hmem
  | append_singleton changes change ih =>
      rw [after_append]
      exact ih.apply change

end Bounded

end LoopStack

end ThemeTemplates
