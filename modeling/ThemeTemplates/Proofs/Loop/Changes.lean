import ThemeTemplates.Loop.Stack

/-!
# Changes to the loop stack

What can be done to a stack of loops, one change after the other, and what that does to the
identities of its frames. A frame is told by the number of the push that opened it: numbers fall
from the innermost frame outwards and none is given twice.
-/

namespace ThemeTemplates.LoopStack

/-- What can be done to a stack. A step or a close can fail, and a stack can be unwound to any
checkpoint, also to one that is not its own. -/
inductive Change where
  | push (kind : LoopKind) (items : List Data) (restore : Data)
  | advance (kind : LoopKind)
  | pop (kind : LoopKind)
  | unwind (mark : Checkpoint)

def apply (stack : LoopStack) : Change → LoopStack
  | .push kind items restore => stack.push kind items restore
  | .advance kind =>
    match stack.advance kind with
    | .ok next => next
    | .error _ => stack
  | .pop kind =>
    match stack.pop kind with
    | .ok (_, rest) => rest
    | .error _ => stack
  | .unwind mark => stack.unwind mark

def after (changes : List Change) : LoopStack :=
  changes.foldl apply empty

theorem after_append (earlier later : List Change) :
    after (earlier ++ later) = later.foldl apply (after earlier) :=
  List.foldl_append

def ids (stack : LoopStack) : List Nat :=
  stack.frames.map LoopFrame.id

@[simp] theorem length_ids (stack : LoopStack) : stack.ids.length = stack.depth :=
  List.length_map ..

theorem checkpoint_eq (stack : LoopStack) :
    stack.checkpoint = ⟨stack.ids.length, stack.ids.head?⟩ := by
  rw [length_ids, ids, List.head?_map]
  rfl

section Steps

variable {stack next rest : LoopStack} {kind : LoopKind} {frame : LoopFrame}
    {outer : List LoopFrame}

theorem topOfKind_eq_ok (found : stack.topOfKind kind = .ok (frame, outer)) :
    stack.frames = frame :: outer ∧ frame.kind = kind := by
  unfold topOfKind at found
  split at found
  · cases found
  · rename_i shape
    split at found
    · rename_i same
      cases found
      exact ⟨shape, by simpa using same⟩
    · cases found

theorem advance_eq_ok (stepped : stack.advance kind = .ok next) :
    ∃ frame outer, stack.frames = frame :: outer ∧ frame.kind = kind ∧
      frame.iteration < frame.items.length ∧
      next = { stack with frames := { frame with position := some frame.iteration } :: outer } := by
  unfold advance at stepped
  cases found : stack.topOfKind kind with
  | error error =>
      rw [found] at stepped
      cases stepped
  | ok top =>
      obtain ⟨shape, sameKind⟩ := topOfKind_eq_ok found
      simp only [found, bind, Except.bind] at stepped
      split at stepped <;> cases stepped
      exact ⟨top.1, top.2, shape, sameKind, ‹_›, rfl⟩

theorem pop_eq_ok (closed : stack.pop kind = .ok (frame, rest)) :
    stack.frames = frame :: rest.frames ∧ frame.kind = kind ∧ rest.lastId = stack.lastId := by
  unfold pop at closed
  cases found : stack.topOfKind kind with
  | error error =>
      rw [found] at closed
      cases closed
  | ok top =>
      obtain ⟨shape, sameKind⟩ := topOfKind_eq_ok found
      rw [found] at closed
      cases closed
      exact ⟨shape, sameKind, rfl⟩

end Steps

theorem ids_unwind (stack : LoopStack) (mark : Checkpoint) :
    (stack.unwind mark).ids = stack.ids.drop (stack.ids.length - mark.depth) := by
  rw [length_ids]
  exact List.map_drop ..

def pushes : List Change → Nat
  | [] => 0
  | .push .. :: changes => pushes changes + 1
  | _ :: changes => pushes changes

/-- A change opens a frame under the next number, or it gives no number and at most takes frames
away, innermost first. -/
theorem ids_apply (stack : LoopStack) (change : Change) :
    ((stack.apply change).ids = (stack.lastId + 1) :: stack.ids ∧
      (stack.apply change).lastId = stack.lastId + 1 ∧ pushes [change] = 1) ∨
    ((stack.apply change).ids <:+ stack.ids ∧
      (stack.apply change).lastId = stack.lastId ∧ pushes [change] = 0) := by
  cases change with
  | push kind items restore => exact .inl ⟨rfl, rfl, rfl⟩
  | advance kind =>
      refine .inr ?_
      cases stepped : stack.advance kind with
      | error error => simp only [apply, stepped, pushes, and_self, List.suffix_refl]
      | ok next =>
          obtain ⟨frame, outer, shape, -, -, rfl⟩ := advance_eq_ok stepped
          simp only [apply, stepped, pushes, ids, shape, List.map_cons, and_self, List.suffix_refl]
  | pop kind =>
      refine .inr ?_
      cases closed : stack.pop kind with
      | error error => simp only [apply, closed, pushes, and_self, List.suffix_refl]
      | ok found =>
          obtain ⟨shape, -, sameLast⟩ := pop_eq_ok closed
          simp only [apply, closed, pushes, ids, shape, sameLast, List.map_cons, List.suffix_cons,
            and_self]
  | unwind mark =>
      refine .inr ⟨?_, rfl, rfl⟩
      simp only [apply, ids_unwind]
      exact List.drop_suffix _ _

/-- How the identities of a stack lie: they fall from the innermost frame outwards, and none has
passed the one given last. -/
structure Numbered (stack : LoopStack) : Prop where
  descending : stack.ids.Pairwise (· > ·)
  given : ∀ id ∈ stack.ids, id ≤ stack.lastId

namespace Numbered

theorem empty : Numbered LoopStack.empty :=
  ⟨.nil, fun _ hmem => nomatch hmem⟩

theorem apply {stack : LoopStack} (numbered : stack.Numbered) (change : Change) :
    (stack.apply change).Numbered := by
  rcases stack.ids_apply change with ⟨opened, last, -⟩ | ⟨suffix, last, -⟩
  · constructor
    · rw [opened]
      exact .cons (fun id hmem => Nat.lt_succ_of_le (numbered.given id hmem)) numbered.descending
    · rw [opened, last]
      rintro id (_ | ⟨_, hmem⟩)
      · exact Nat.le_refl _
      · exact Nat.le_succ_of_le (numbered.given id hmem)
  · constructor
    · exact numbered.descending.sublist suffix.sublist
    · rw [last]
      exact fun id hmem => numbered.given id (suffix.subset hmem)

theorem foldl {stack : LoopStack} (numbered : stack.Numbered) (changes : List Change) :
    (changes.foldl LoopStack.apply stack).Numbered := by
  induction changes generalizing stack with
  | nil => exact numbered
  | cons change changes ih => exact ih (numbered.apply change)

theorem after (changes : List Change) : (after changes).Numbered :=
  empty.foldl changes

end Numbered

theorem lastId_foldl (stack : LoopStack) (changes : List Change) :
    (changes.foldl apply stack).lastId = stack.lastId + pushes changes := by
  induction changes generalizing stack with
  | nil => rfl
  | cons change changes ih =>
      have counted : pushes (change :: changes) = pushes [change] + pushes changes := by
        cases change <;> simp only [pushes] <;> omega
      rw [List.foldl_cons, ih, counted]
      rcases stack.ids_apply change with ⟨-, last, opens⟩ | ⟨-, last, opens⟩ <;> omega

/-- The counter is the number of frames opened so far, so one of 64 bits lasts for as many. -/
theorem lastId_after (changes : List Change) : (after changes).lastId = pushes changes :=
  (lastId_foldl empty changes).trans (Nat.zero_add _)

/-- How a stack has come out of an earlier one: beneath frames with new numbers there is what is
left of the frames of the earlier stack, from the outside. -/
def Follows (later earlier : LoopStack) : Prop :=
  earlier.lastId ≤ later.lastId ∧
    ∃ opened kept, later.ids = opened ++ kept ∧ kept <:+ earlier.ids ∧
      ∀ id ∈ opened, earlier.lastId < id

namespace Follows

theorem refl (stack : LoopStack) : Follows stack stack :=
  ⟨Nat.le_refl _, [], stack.ids, rfl, List.suffix_refl _, fun _ hmem => nomatch hmem⟩

theorem apply {earlier later : LoopStack} (follows : Follows later earlier) (change : Change) :
    Follows (later.apply change) earlier := by
  obtain ⟨grows, opened, kept, shape, suffix, fresh⟩ := follows
  rcases later.ids_apply change with ⟨pushed, last, -⟩ | ⟨left, last, -⟩
  · refine ⟨by omega, (later.lastId + 1) :: opened, kept, ?_, suffix, ?_⟩
    · rw [pushed, shape, List.cons_append]
    · rintro id (_ | ⟨_, hmem⟩)
      · exact Nat.lt_succ_of_le grows
      · exact fresh id hmem
  · -- what is left lies among the kept frames, or it still holds all of them
    rw [shape, List.suffix_iff_eq_drop, List.drop_append] at left
    exact ⟨by omega, _, _, left, (List.drop_suffix _ _).trans suffix,
      fun id hmem => fresh id (List.drop_subset _ _ hmem)⟩

theorem foldl {earlier later : LoopStack} (follows : Follows later earlier)
    (changes : List Change) : Follows (changes.foldl LoopStack.apply later) earlier := by
  induction changes generalizing later with
  | nil => exact follows
  | cons change changes ih => exact ih (follows.apply change)

theorem after (earlier later : List Change) :
    Follows (after (earlier ++ later)) (after earlier) := by
  rw [after_append]
  exact (refl _).foldl later

end Follows

end ThemeTemplates.LoopStack
