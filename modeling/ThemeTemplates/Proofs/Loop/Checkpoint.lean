import ThemeTemplates.Proofs.Loop.Changes

/-!
# What a checkpoint tells

A checkpoint is a depth and one number. Along a run of a stack these two tell which frames are open:
checkpoints of two moments agree exactly if the same frames are open at both, so a stack passes for
unchanged exactly if no frame has been closed and none has been left open since.
-/

namespace ThemeTemplates.LoopStack

namespace Follows

variable {mark stack : LoopStack} (follows : Follows stack mark)

include follows

theorem mem_of_le {id : Nat} (hmem : id ∈ stack.ids) (old : id ≤ mark.lastId) : id ∈ mark.ids := by
  obtain ⟨-, opened, kept, shape, suffix, fresh⟩ := follows
  rw [shape, List.mem_append] at hmem
  exact suffix.subset (hmem.resolve_left fun new => absurd old (Nat.not_le.mpr (fresh id new)))

/-- Without newer frames there is only what is left of the frames of the mark. -/
theorem suffix_of_head_le (old : ∀ id ∈ stack.ids.head?, id ≤ mark.lastId) :
    stack.ids <:+ mark.ids := by
  obtain ⟨-, opened, kept, shape, suffix, fresh⟩ := follows
  cases opened with
  | nil => exact shape ▸ suffix
  | cons id opened =>
      have newer := fresh id List.mem_cons_self
      exact absurd (old id (by rw [shape]; rfl)) (Nat.not_le.mpr newer)

/-- The frames of the mark that are all still open lie as they lay, beneath newer ones. -/
theorem suffix_iff (numbered : mark.Numbered) :
    mark.ids <:+ stack.ids ↔ ∀ id ∈ mark.ids, id ∈ stack.ids := by
  constructor
  · exact fun suffix id hmem => suffix.subset hmem
  · intro allOpen
    obtain ⟨-, opened, kept, shape, ⟨closed, split⟩, fresh⟩ := follows
    have none_closed : closed = [] := by
      refine List.eq_nil_iff_forall_not_mem.mpr fun id lost => ?_
      have known : id ∈ mark.ids := split ▸ List.mem_append_left _ lost
      have stays : id ∈ kept := by
        have found := allOpen id known
        rw [shape, List.mem_append] at found
        exact found.resolve_left fun new => Nat.not_le.mpr (fresh id new) (numbered.given id known)
      -- numbers fall along the stack, so none of them stands on both sides of the split
      have falls := List.pairwise_append.mp (split ▸ numbered.descending)
      exact Nat.lt_irrefl id (falls.2.2 id lost id stays)
    rw [shape, ← split, none_closed]
    exact List.suffix_append _ _

theorem checkpoint_eq_iff (numbered : mark.Numbered) :
    mark.checkpoint = stack.checkpoint ↔ mark.ids = stack.ids := by
  simp only [checkpoint_eq, Checkpoint.mk.injEq]
  constructor
  · rintro ⟨sameLength, sameHead⟩
    have old : ∀ id ∈ stack.ids.head?, id ≤ mark.lastId :=
      fun id hmem => numbered.given id (List.mem_of_head? (sameHead.trans hmem))
    exact ((follows.suffix_of_head_le old).eq_of_length sameLength.symm).symm
  · intro same
    exact ⟨congrArg List.length same, congrArg List.head? same⟩

theorem verify_iff (numbered : mark.Numbered) :
    stack.verify mark.checkpoint = .ok () ↔ mark.ids = stack.ids := by
  rw [← follows.checkpoint_eq_iff numbered, eq_comm (a := mark.checkpoint)]
  unfold verify
  split <;> simpa

theorem ids_eq_iff (numbered : mark.Numbered) : mark.ids = stack.ids ↔
    (∀ id ∈ mark.ids, id ∈ stack.ids) ∧ ∀ id ∈ stack.ids, id ≤ mark.lastId := by
  constructor
  · intro same
    exact ⟨fun id hmem => same ▸ hmem, fun id hmem => numbered.given id (same ▸ hmem)⟩
  · rintro ⟨allOpen, noneNewer⟩
    have beneath := (follows.suffix_iff numbered).mpr allOpen
    have left := follows.suffix_of_head_le fun id hmem => noneNewer id (List.mem_of_head? hmem)
    exact beneath.eq_of_length_le left.length_le

end Follows

/-- Every frame that was open after the earlier changes is open at all times from then on. -/
def KeptOpen (earlier later : List Change) : Prop :=
  ∀ id ∈ (after earlier).ids, ∀ sofar, sofar <+: later → id ∈ (after (earlier ++ sofar)).ids

/-- A frame that is open now has not been closed, for a closed one never comes back. -/
theorem keptOpen_iff (earlier later : List Change) :
    KeptOpen earlier later ↔ ∀ id ∈ (after earlier).ids, id ∈ (after (earlier ++ later)).ids := by
  constructor
  · exact fun kept id hmem => kept id hmem later (List.prefix_refl _)
  · rintro allOpen id hmem sofar ⟨rest, rfl⟩
    have known : id ≤ (after (earlier ++ sofar)).lastId :=
      Nat.le_trans ((Numbered.after earlier).given id hmem) (Follows.after earlier sofar).1
    refine (Follows.after (earlier ++ sofar) rest).mem_of_le ?_ known
    rw [List.append_assoc]
    exact allOpen id hmem

/-- Unwinding leaves the frames of the mark exactly if they lie at the bottom. -/
theorem ids_unwind_eq_iff (mark stack : LoopStack) :
    mark.ids = (stack.unwind mark.checkpoint).ids ↔ mark.ids <:+ stack.ids := by
  rw [ids_unwind, List.suffix_iff_eq_drop, checkpoint_eq]

/-- A checkpoint tells the open frames exactly. For any two moments of a run, whatever is done to
the stack before and between them: a push opens a frame under its own number among the pushes, and
all frames open at a moment have such numbers; the checkpoints are equal if and only if the open
frames are; the later stack passes for unchanged if and only if all frames of the earlier one are
still open and none opened since is, and then none of the former was closed at any time between; and
what unwinding leaves passes for unchanged if and only if none of them was closed. -/
theorem checkpoint_tells_frames (earlier later : List Change) :
    (∀ kind items restore, (after (earlier ++ [.push kind items restore])).ids =
      (pushes earlier + 1) :: (after earlier).ids) ∧
    (∀ id ∈ (after earlier).ids, id ≤ pushes earlier) ∧
    ((after earlier).checkpoint = (after (earlier ++ later)).checkpoint ↔
      (after earlier).ids = (after (earlier ++ later)).ids) ∧
    ((after (earlier ++ later)).verify (after earlier).checkpoint = .ok () ↔
      (∀ id ∈ (after earlier).ids, id ∈ (after (earlier ++ later)).ids) ∧
        ∀ id ∈ (after (earlier ++ later)).ids, id ≤ pushes earlier) ∧
    ((after (earlier ++ later)).verify (after earlier).checkpoint = .ok () →
      KeptOpen earlier later) ∧
    (((after (earlier ++ later)).unwind (after earlier).checkpoint).verify
      (after earlier).checkpoint = .ok () ↔ KeptOpen earlier later) := by
  have numbered := Numbered.after earlier
  have follows := Follows.after earlier later
  have last := lastId_after earlier
  have unwound : Follows ((after (earlier ++ later)).unwind (after earlier).checkpoint)
      (after earlier) := follows.apply (.unwind _)
  refine ⟨fun kind items restore => ?_, last ▸ numbered.given, follows.checkpoint_eq_iff numbered,
    ?_, ?_, ?_⟩
  · rw [after_append, ← last]
    rfl
  · rw [follows.verify_iff numbered, follows.ids_eq_iff numbered, last]
  · rw [follows.verify_iff numbered, follows.ids_eq_iff numbered, keptOpen_iff]
    exact And.left
  · rw [unwound.verify_iff numbered, keptOpen_iff, ← follows.suffix_iff numbered]
    exact ids_unwind_eq_iff _ _

/-- A frame that was closed and opened again is noticed at the same depth. -/
example : (after [.push .loop [] .null, .pop .loop, .push .loop [] .null]).verify
    (after [.push .loop [] .null]).checkpoint = .error (.unbalanced 1 1) := rfl

end ThemeTemplates.LoopStack
