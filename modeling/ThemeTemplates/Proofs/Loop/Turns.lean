import Mathlib.Data.List.Nodup
import ThemeTemplates.Proofs.Loop.Checkpoint
import ThemeTemplates.Proofs.Loop.Frames

/-!
# Turns of a loop

The steps of a frame that succeed are its turns. Whatever is opened, closed and refused in between,
they visit the items of the frame one by one in their order, and no step succeeds after the last
one. A step or a close that fails changes nothing.
-/

namespace ThemeTemplates.LoopStack

/-- The stack right after a change that moves the frame `id` on to an item; none if the change does
not. -/
def turn? (id : Nat) (stack : LoopStack) : Change → Option LoopStack
  | .advance kind =>
    match stack.advance kind with
    | .ok next => if next.top?.map LoopFrame.id = some id then some next else none
    | .error _ => none
  | _ => none

/-- The stack at each turn of the frame `id` along some changes, right after the step. -/
def turns (id : Nat) (stack : LoopStack) : List Change → List LoopStack
  | [] => []
  | change :: changes => (turn? id stack change).toList ++ turns id (stack.apply change) changes

section OneChange

variable {stack : LoopStack} {frame : LoopFrame}

namespace Numbered

theorem eq_of_id_eq (numbered : stack.Numbered) {other : LoopFrame} (hmem : frame ∈ stack.frames)
    (hother : other ∈ stack.frames) (same : other.id = frame.id) : other = frame := by
  have distinct : stack.ids.Nodup := numbered.descending.imp fun falls => Nat.ne_of_gt falls
  exact List.inj_on_of_nodup_map distinct hother hmem same

/-- Of some frames of a stack, a frame of the stack is one or its number is none of theirs. -/
theorem mem_or_notMem_ids (numbered : stack.Numbered) (hmem : frame ∈ stack.frames)
    {frames : List LoopFrame} (left : frames ⊆ stack.frames) :
    frame ∈ frames ∨ frame.id ∉ frames.map LoopFrame.id := by
  by_cases stays : frame ∈ frames
  · exact .inl stays
  · refine .inr fun known => ?_
    obtain ⟨other, hother, same⟩ := List.mem_map.mp known
    exact stays (numbered.eq_of_id_eq hmem (left hother) same ▸ hother)

end Numbered

theorem turn?_of_room {top : LoopFrame} {outer : List LoopFrame}
    (shape : stack.frames = top :: outer) (room : top.iteration < top.items.length) (id : Nat) :
    turn? id stack (.advance top.kind) =
      if top.id = id then some (stack.apply (.advance top.kind)) else none := by
  simp only [turn?, apply, advance_of_room shape room, top?, List.head?_cons, Option.map_some,
    LoopFrame.id_step, Option.some.injEq]

/-- A change is a turn of an open frame, or it leaves the frame as it is or closes it. -/
theorem Numbered.turn?_cases (numbered : stack.Numbered) (hmem : frame ∈ stack.frames)
    (change : Change) :
    (turn? frame.id stack change = some (stack.apply change) ∧
      frame.iteration < frame.items.length ∧
      (stack.apply change).frames.head? = some frame.step) ∨
    (turn? frame.id stack change = none ∧
      (frame ∈ (stack.apply change).frames ∨ frame.id ∉ (stack.apply change).ids)) := by
  have effect := stack.effect_apply change
  unfold ids
  generalize after : (stack.apply change).frames = frames at effect
  cases effect with
  | opens => exact .inr ⟨rfl, .inl (List.mem_cons_of_mem _ hmem)⟩
  | @moves top outer shape room =>
      rw [turn?_of_room shape room]
      by_cases same : top.id = frame.id
      · have isTop : top = frame :=
          numbered.eq_of_id_eq hmem (shape ▸ List.mem_cons_self) same
        exact .inl ⟨if_pos same, isTop ▸ room, by rw [isTop]; rfl⟩
      · rw [shape, List.mem_cons] at hmem
        have beneath : frame ∈ outer := hmem.resolve_left fun isTop => same (isTop ▸ rfl)
        exact .inr ⟨if_neg same, .inl (List.mem_cons_of_mem _ beneath)⟩
  | closes shape =>
      exact .inr ⟨rfl, numbered.mem_or_notMem_ids hmem (shape ▸ List.subset_cons_self _ _)⟩
  | unwinds => exact .inr ⟨rfl, numbered.mem_or_notMem_ids hmem (List.drop_subset _ _)⟩
  | refusesStep refused => exact .inr ⟨by simp only [turn?, refused], .inl hmem⟩
  | refusesClose => exact .inr ⟨rfl, .inl hmem⟩

theorem turn?_of_closed {id : Nat} (closed : id ∉ stack.ids) (change : Change) :
    turn? id stack change = none := by
  have effect := stack.effect_apply change
  generalize (stack.apply change).frames = frames at effect
  cases effect with
  | @moves top outer shape room =>
      rw [turn?_of_room shape room]
      refine if_neg fun same => closed ?_
      rw [ids, shape, List.map_cons, same]
      exact List.mem_cons_self
  | refusesStep refused => simp only [turn?, refused]
  | opens | closes | unwinds | refusesClose => rfl

end OneChange

/-! ### Runs -/

variable {stack : LoopStack} {frame : LoopFrame}

theorem turns_of_closed {id : Nat} (known : id ≤ stack.lastId) (closed : id ∉ stack.ids)
    (changes : List Change) : turns id stack changes = [] := by
  induction changes generalizing stack with
  | nil => rfl
  | cons change changes ih =>
      have follows := (Follows.refl stack).apply change
      rw [turns, turn?_of_closed closed]
      exact ih (Nat.le_trans known follows.1) fun reopened =>
        closed (follows.mem_of_le reopened known)

/-- An open frame comes to its items one by one: each of its turns is one step further than the one
before it, and there it stays until it is closed. -/
theorem turns_steps (numbered : stack.Numbered) (hmem : frame ∈ stack.frames)
    (changes : List Change) (bounded : frame.iteration ≤ frame.items.length) :
    frame.iteration + (turns frame.id stack changes).length ≤ frame.items.length ∧
    (∀ turn moment, (turns frame.id stack changes)[turn]? = some moment →
      moment.top? = some (LoopFrame.step^[turn + 1] frame)) ∧
    ∀ last ∈ (changes.foldl apply stack).frames, last.id = frame.id →
      last = LoopFrame.step^[(turns frame.id stack changes).length] frame := by
  induction changes generalizing stack frame with
  | nil =>
      refine ⟨bounded, (fun _ _ found => nomatch found), fun last hlast same => ?_⟩
      exact numbered.eq_of_id_eq hmem hlast same
  | cons change changes ih =>
      rcases numbered.turn?_cases hmem change with ⟨isTurn, room, top⟩ | ⟨noTurn, stays | closed⟩
      · obtain ⟨inside, between, stands⟩ :=
          ih (numbered.apply change) (List.mem_of_head? top) room
        simp only [turns, isTurn, Option.toList_some, List.singleton_append, List.length_cons]
        rw [LoopFrame.iteration_step, LoopFrame.id_step, LoopFrame.items_step] at inside
        refine ⟨by omega, fun turn moment found => ?_, stands⟩
        cases turn with
        | zero =>
            cases found
            exact top
        | succ turn => exact between turn moment found
      · simp only [turns, noTurn, Option.toList_none, List.nil_append]
        exact ih (numbered.apply change) stays bounded
      · have follows := (Follows.refl stack).apply change
        have known : frame.id ≤ stack.lastId := numbered.given _ (List.mem_map_of_mem hmem)
        simp only [turns, noTurn, Option.toList_none, List.nil_append,
          turns_of_closed (Nat.le_trans known follows.1) closed]
        refine ⟨bounded, (fun _ _ found => nomatch found), fun last hlast same => ?_⟩
        refine absurd ?_ closed
        exact ((Follows.refl (stack.apply change)).foldl changes).mem_of_le
          (same ▸ List.mem_map_of_mem hlast) (Nat.le_trans known follows.1)

/-! ### A loop from its opening -/

/-- The innermost frame of a stack is of a kind, over some items, and stands on the item at a
position, as the metadata says. -/
def StandsOn (kind : LoopKind) (items : List Data) (position : Nat) (stack : LoopStack) : Prop :=
  ∃ frame item, stack.top? = some frame ∧ frame.kind = kind ∧ frame.items = items ∧
    frame.index = position ∧ items[position]? = some item ∧ frame.current? = some item ∧
    stack.metadata?.map LoopMetadata.index = some position

/-- What a step does to a stack whose innermost frame is of a kind, over some items, and has had so
many turns. -/
structure StepsFrom (kind : LoopKind) (items : List Data) (turns : Nat) (stack : LoopStack) :
    Prop where
  room : turns < items.length → ∃ next, stack.advance kind = .ok next
  full : turns = items.length → stack.advance kind = .error (.exhausted kind items.length)
  otherKind : ∀ other, other ≠ kind → stack.advance other = .error (.kindMismatch other kind)

section Innermost

variable (top : stack.top? = some frame)

include top

theorem frames_of_top? : stack.frames = frame :: stack.frames.tail :=
  List.eq_cons_of_mem_head? top

theorem standsOn_of_position {position : Nat} (stands : frame.position = some position)
    (room : position < frame.items.length) : StandsOn frame.kind frame.items position stack := by
  have index : frame.index = position := by rw [LoopFrame.index, stands, Option.getD_some]
  have item : frame.items[position]? = some frame.items[position] := List.getElem?_eq_getElem room
  have current : frame.current? = some frame.items[position] := by
    rw [LoopFrame.current?, stands, Option.bind_some, item]
  refine ⟨frame, frame.items[position], top, rfl, rfl, index, item, current, ?_⟩
  rw [metadata?, frames_of_top? top]
  exact congrArg some index

theorem stepsFrom_iteration : StepsFrom frame.kind frame.items frame.iteration stack where
  room := fun room => ⟨_, advance_of_room (frames_of_top? top) room⟩
  full := fun full => advance_of_full (frames_of_top? top) (Nat.le_of_eq full.symm)
  otherKind := fun _ other => advance_of_kind_ne (frames_of_top? top) other.symm

end Innermost

section Opened

variable {base : LoopStack} (numbered : base.Numbered) (kind : LoopKind) (items : List Data)
  (restore : Data) (changes : List Change)

include numbered

theorem turns_opening :
    let opened := base.push kind items restore
    let moments := turns opened.lastId opened changes
    moments.length ≤ items.length ∧
    (∀ turn moment, moments[turn]? = some moment →
      moment.top? = some (LoopFrame.step^[turn + 1] (base.opening kind items restore))) ∧
    ∀ last ∈ (changes.foldl apply opened).frames, last.id = opened.lastId →
      last = LoopFrame.step^[moments.length] (base.opening kind items restore) := by
  have isOpen : base.opening kind items restore ∈ (base.push kind items restore).frames :=
    List.mem_cons_self
  obtain ⟨inside, between, stands⟩ :=
    turns_steps (numbered.apply (.push kind items restore)) isOpen changes (Nat.zero_le _)
  exact ⟨Nat.le_trans (Nat.le_add_left _ _) inside, between, stands⟩

theorem standsOn_turn {turn : Nat} {moment : LoopStack}
    (found : (turns (base.push kind items restore).lastId (base.push kind items restore)
      changes)[turn]? =
      some moment) : StandsOn kind items turn moment := by
  obtain ⟨inside, between, -⟩ := turns_opening numbered kind items restore changes
  have room : turn < items.length :=
    Nat.lt_of_lt_of_le (List.getElem?_eq_some_iff.mp found).1 inside
  have same := (base.opening kind items restore).sameLoop_iterate (turn + 1)
  have position := (base.opening kind items restore).position_iterate turn
  have stands := standsOn_of_position (between turn moment found)
    (position.trans (congrArg some (Nat.zero_add turn))) (same.items.symm ▸ room)
  rwa [same.kind, same.items] at stands

theorem stepsFrom_turns {frame : LoopFrame}
    (top : (changes.foldl apply (base.push kind items restore)).top? = some frame)
    (isLoop : frame.id = (base.push kind items restore).lastId) :
    StepsFrom kind items
      (turns (base.push kind items restore).lastId (base.push kind items restore) changes).length
      (changes.foldl apply (base.push kind items restore)) := by
  obtain ⟨-, -, stands⟩ := turns_opening numbered kind items restore changes
  have stepped := stands frame (List.mem_of_head? top) isLoop
  have steps := stepsFrom_iteration top
  have same := (base.opening kind items restore).sameLoop_iterate
    (turns (base.push kind items restore).lastId (base.push kind items restore) changes).length
  have fresh : (base.opening kind items restore).iteration = 0 := rfl
  rwa [stepped, same.kind, same.items, LoopFrame.iteration_iterate, fresh, Nat.zero_add] at steps

end Opened

/-! ### Refusals -/

theorem apply_advance_eq_self_iff (stack : LoopStack) (kind : LoopKind) :
    stack.apply (.advance kind) = stack ↔ ∃ error, stack.advance kind = .error error := by
  constructor
  · intro same
    cases stepped : stack.advance kind with
    | error error => exact ⟨error, rfl⟩
    | ok next =>
        obtain ⟨frame, outer, shape, rfl, room, -⟩ := advance_eq_ok stepped
        simp only [apply, advance_of_room shape room] at same
        have stays : frame.step :: outer = frame :: outer := (congrArg frames same).trans shape
        have iterations := congrArg LoopFrame.iteration (List.cons.inj stays).1
        exact absurd iterations (Nat.succ_ne_self _)
  · rintro ⟨error, refused⟩
    simp only [apply, refused]

theorem apply_pop_eq_self_iff (stack : LoopStack) (kind : LoopKind) :
    stack.apply (.pop kind) = stack ↔ ∃ error, stack.pop kind = .error error := by
  constructor
  · intro same
    cases closed : stack.pop kind with
    | error error => exact ⟨error, rfl⟩
    | ok found =>
        obtain ⟨shape, -, -⟩ := pop_eq_ok closed
        simp only [apply, closed] at same
        rw [same] at shape
        exact absurd shape (List.cons_ne_self _ _).symm
  · rintro ⟨error, refused⟩
    simp only [apply, refused]

end ThemeTemplates.LoopStack
