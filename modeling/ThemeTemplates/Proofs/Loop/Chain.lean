import ThemeTemplates.Proofs.Loop.Frames

/-!
# Chains of loop metadata

The metadata of the innermost loop leads to that of the loops around it, one record for each open
frame. The records are read off the frames one by one, and on a loop that has started all their
fields fit together.
-/

namespace ThemeTemplates

namespace LoopMetadata

def chain (loop : LoopMetadata) : List LoopMetadata :=
  match loop with
  | { parent := none, .. } => [loop]
  | { parent := some outer, .. } => loop :: outer.chain

theorem chain_eq (loop : LoopMetadata) : loop.chain = loop :: (loop.parent.map chain).getD [] := by
  obtain ⟨_, _, _, _, _, _, _, _, _, parent⟩ := loop
  cases parent <;> rfl

/-- How the fields of a record fit together while its loop stands on an item. -/
structure Coherent (loop : LoopMetadata) : Prop where
  iteration : loop.iteration = loop.index + 1
  remaining : loop.iteration + loop.remaining = loop.count
  first_iff : loop.first = true ↔ loop.index = 0
  last_iff : loop.last = true ↔ loop.remaining = 0
  even_iff : loop.even = true ↔ loop.iteration % 2 = 0
  odd_iff : loop.odd = true ↔ loop.iteration % 2 = 1
  even_or_odd : loop.odd = !loop.even

/-- A record counts no items, neither reached nor to come. -/
structure CountsNothing (loop : LoopMetadata) : Prop where
  count : loop.count = 0
  iteration : loop.iteration = 0
  remaining : loop.remaining = 0

structure Describes (loop : LoopMetadata) (frame : LoopFrame) : Prop where
  index : loop.index = frame.index
  iteration : loop.iteration = frame.iteration
  count : loop.count = frame.items.length

end LoopMetadata

namespace LoopFrame

variable (frame : LoopFrame) (depth : Nat) (parent : Option LoopMetadata)

theorem describes_metadata : (frame.metadata depth parent).Describes frame :=
  ⟨rfl, rfl, rfl⟩

theorem coherent_metadata {frame : LoopFrame} (started : frame.position.isSome = true)
    (bounded : frame.iteration ≤ frame.items.length) : (frame.metadata depth parent).Coherent := by
  obtain ⟨index, stands⟩ := Option.isSome_iff_exists.mp started
  have reached : frame.iteration = frame.index + 1 := by simp [iteration, LoopFrame.index, stands]
  constructor
  · exact reached
  · simp only [metadata]
    omega
  · simp [metadata]
  · simp only [metadata, decide_eq_true_iff]
    omega
  · simp [metadata]
  · simp [metadata]
  · show (frame.iteration % 2 == 1) = !(frame.iteration % 2 == 0)
    rcases Nat.mod_two_eq_zero_or_one frame.iteration with even | odd
    · rw [even]
      rfl
    · rw [odd]
      rfl

theorem countsNothing_metadata {frame : LoopFrame} (empty : frame.items = [])
    (bounded : frame.iteration ≤ frame.items.length) :
      (frame.metadata depth parent).CountsNothing := by
  rw [empty] at bounded
  exact ⟨by simp [metadata, empty], Nat.le_zero.mp bounded, by simp [metadata, empty]⟩

end LoopFrame

namespace LoopStack

/-- The records of some frames, each of which lies right around the one before it. -/
def recordsOf (frames : List LoopFrame) : List LoopMetadata :=
  ((metadataOf frames).map LoopMetadata.chain).getD []

def records (stack : LoopStack) : List LoopMetadata :=
  recordsOf stack.frames

theorem recordsOf_cons (frame : LoopFrame) (outer : List LoopFrame) :
    recordsOf (frame :: outer) =
      frame.metadata (outer.length + 1) (metadataOf outer) :: recordsOf outer := by
  simp only [recordsOf, metadataOf, Option.map_some, Option.getD_some]
  exact LoopMetadata.chain_eq _

@[simp] theorem length_recordsOf (frames : List LoopFrame) :
    (recordsOf frames).length = frames.length := by
  induction frames with
  | nil => rfl
  | cons frame outer ih => rw [recordsOf_cons, List.length_cons, List.length_cons, ih]

theorem head?_recordsOf (frames : List LoopFrame) :
    (recordsOf frames).head? = metadataOf frames := by
  cases frames with
  | nil => rfl
  | cons frame outer =>
      rw [recordsOf_cons]
      rfl

theorem getElem?_recordsOf (frames : List LoopFrame) (around : Nat) :
    (recordsOf frames)[around]? = frames[around]?.map fun frame =>
      frame.metadata (frames.length - around) (recordsOf frames)[around + 1]? := by
  induction frames generalizing around with
  | nil => rfl
  | cons frame outer ih =>
      rw [recordsOf_cons]
      cases around with
      | zero =>
          simp only [List.getElem?_cons_zero, List.getElem?_cons_succ, Option.map_some,
            List.length_cons, Nat.sub_zero, ← head?_recordsOf, List.head?_eq_getElem?]
      | succ around =>
          rw [List.getElem?_cons_succ, List.getElem?_cons_succ, List.getElem?_cons_succ, ih,
            List.length_cons, Nat.add_sub_add_right]

/-- Loop metadata is coherent along the whole chain. After any changes, the metadata of the
innermost loop leads a chain of as many records as there are open frames; the record so many steps
out tells of the frame that lies so far beneath the innermost one, has the depth of that frame and
leads to the next record; the fields of a record fit together if its loop has started; and a loop
without items counts nothing. -/
theorem records_coherent (changes : List Change) :
    let stack := after changes
    stack.records.length = stack.depth ∧ stack.records.head? = stack.metadata? ∧
      ∀ around loop, stack.records[around]? = some loop →
        ∃ frame, stack.frames[around]? = some frame ∧ loop.Describes frame ∧
          loop.depth = stack.depth - around ∧ loop.parent = stack.records[around + 1]? ∧
          (frame.position.isSome = true → loop.Coherent) ∧
          (frame.items = [] → loop.CountsNothing) := by
  intro stack
  refine ⟨length_recordsOf _, head?_recordsOf _, fun around loop found => ?_⟩
  rw [records, getElem?_recordsOf, Option.map_eq_some_iff] at found
  obtain ⟨frame, lies, rfl⟩ := found
  have bounded := Bounded.after changes frame (List.mem_of_getElem? lies)
  exact ⟨frame, lies, frame.describes_metadata _ _, rfl, rfl,
    fun started => LoopFrame.coherent_metadata _ _ started bounded,
    fun empty => LoopFrame.countsNothing_metadata _ _ empty bounded⟩

end LoopStack

end ThemeTemplates
