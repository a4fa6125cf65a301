import ThemeTemplates.Proofs.Loop.Chain

/-!
# Closed loops

As long as a stack stays deeper than it was when a loop was opened, the frame of that loop lies
where it was put and nothing beneath it changes, whatever is done above. So a loop can always be
closed once the loops inside it are, and the stack is then as it was before.
-/

namespace ThemeTemplates.LoopStack

/-- A stack is deeper than a level at all moments of a run of changes, the first one included. -/
def StaysAbove (level : Nat) (stack : LoopStack) (changes : List Change) : Prop :=
  ∀ sofar, sofar <+: changes → level < (sofar.foldl apply stack).depth

theorem staysAbove_nil {level : Nat} {stack : LoopStack} :
    StaysAbove level stack [] ↔ level < stack.depth := by
  constructor
  · exact fun above => above [] (List.prefix_refl _)
  · rintro deeper sofar isPrefix
    rw [List.prefix_nil.mp isPrefix]
    exact deeper

theorem staysAbove_cons {level : Nat} {stack : LoopStack} {change : Change}
    {changes : List Change} :
    StaysAbove level stack (change :: changes) ↔
      level < stack.depth ∧ StaysAbove level (stack.apply change) changes := by
  constructor
  · intro above
    exact ⟨above [] List.nil_prefix, fun sofar isPrefix =>
      above (change :: sofar) (List.cons_prefix_cons.mpr ⟨rfl, isPrefix⟩)⟩
  · rintro ⟨deeper, above⟩ sofar isPrefix
    cases sofar with
    | nil => exact deeper
    | cons first sofar =>
        obtain ⟨rfl, sooner⟩ := List.cons_prefix_cons.mp isPrefix
        exact above sofar sooner

/-- A frame of a loop lies right on top of some frames, beneath any others. -/
def Covers (loop : LoopFrame) (base : List LoopFrame) (stack : LoopStack) : Prop :=
  ∃ inner frame, stack.frames = inner ++ frame :: base ∧ frame.SameLoop loop

namespace Covers

variable {loop : LoopFrame} {base : List LoopFrame} {stack : LoopStack}

theorem opening (stack : LoopStack) (kind : LoopKind) (items : List Data) (restore : Data) :
    Covers (stack.opening kind items restore) stack.frames (stack.push kind items restore) :=
  ⟨[], _, rfl, .refl _⟩

theorem apply (covers : Covers loop base stack) {change : Change}
    (deeper : base.length < (stack.apply change).depth) :
      Covers loop base (stack.apply change) := by
  obtain ⟨inner, frame, lies, same⟩ := covers
  have effect := stack.effect_apply change
  unfold Covers
  unfold depth at deeper
  generalize (stack.apply change).frames = frames at effect deeper
  cases effect with
  | opens kind items restore =>
      exact ⟨stack.opening kind items restore :: inner, frame, by rw [lies, List.cons_append], same⟩
  | @moves top outer shape room =>
      rw [lies] at shape
      cases inner with
      | nil =>
          cases shape
          exact ⟨[], frame.step, rfl, same.step⟩
      | cons first inner =>
          cases shape
          exact ⟨top.step :: inner, frame, rfl, same⟩
  | @closes top outer shape =>
      rw [lies] at shape
      cases inner with
      | nil =>
          cases shape
          exact absurd deeper (Nat.lt_irrefl _)
      | cons first inner =>
          cases shape
          exact ⟨inner, frame, rfl, same⟩
  | unwinds mark =>
      rw [lies] at deeper ⊢
      rw [List.length_drop, List.length_append, List.length_cons] at deeper
      exact ⟨_, frame, List.drop_append_of_le_length (by omega), same⟩
  | refusesStep | refusesClose => exact ⟨inner, frame, lies, same⟩

theorem foldl (covers : Covers loop base stack) {changes : List Change}
    (above : StaysAbove base.length stack changes) :
    Covers loop base (changes.foldl LoopStack.apply stack) := by
  induction changes generalizing stack with
  | nil => exact covers
  | cons change changes ih =>
      have later := (staysAbove_cons.mp above).2
      exact ih (covers.apply (later [] List.nil_prefix)) later

end Covers

/-! ### Records of the loops around -/

def recordAt? (stack : LoopStack) (level : Nat) : Option LoopMetadata :=
  stack.records.find? fun loop => loop.depth == level

theorem find?_recordsOf_append (inner base : List LoopFrame) :
    ((recordsOf (inner ++ base)).find? fun loop => loop.depth == base.length) =
      metadataOf base := by
  induction inner with
  | nil =>
      cases base with
      | nil => rfl
      | cons frame outer =>
          rw [List.nil_append, recordsOf_cons,
            List.find?_cons_of_pos (by simp [LoopFrame.metadata])]
          rfl
  | cons frame inner ih =>
      have deeper : (inner ++ base).length + 1 ≠ base.length := by
        rw [List.length_append]
        omega
      rw [List.cons_append, recordsOf_cons,
        List.find?_cons_of_neg (by simpa [LoopFrame.metadata] using deeper), ih]

theorem Covers.recordAt? {loop : LoopFrame} {base stack : LoopStack}
    (covers : Covers loop base.frames stack) : stack.recordAt? base.depth = base.metadata? := by
  obtain ⟨inner, frame, lies, -⟩ := covers
  unfold LoopStack.recordAt? records
  rw [lies, List.append_cons]
  exact find?_recordsOf_append _ _

/-- A closed loop leaves no trace. Open a loop on any stack and go on with any changes, failing ones
among them, by which the stack stays deeper than it was: at every moment the record at the depth it
had is the metadata it had; and once only the loop itself is left of what was opened since, closing
it succeeds, hands back the frame with what it was opened with, and leaves the frames and the
metadata as they were before. -/
theorem closed_loop_leaves_no_trace (base : LoopStack) (kind : LoopKind) (items : List Data)
    (restore : Data) (within : List Change)
    (above : StaysAbove base.depth (base.push kind items restore) within) :
    (∀ sofar, sofar <+: within →
      (sofar.foldl apply (base.push kind items restore)).recordAt? base.depth = base.metadata?) ∧
    ((within.foldl apply (base.push kind items restore)).depth = base.depth + 1 →
      ∃ frame rest, (within.foldl apply (base.push kind items restore)).pop kind =
        .ok (frame, rest) ∧
        frame.kind = kind ∧ frame.items = items ∧ frame.restore = restore ∧
        rest.frames = base.frames ∧ rest.metadata? = base.metadata?) := by
  have opened := Covers.opening base kind items restore
  constructor
  · intro sofar isPrefix
    have sooner : StaysAbove base.depth (base.push kind items restore) sofar :=
      fun earlier isEarlier => above earlier (isEarlier.trans isPrefix)
    exact (opened.foldl sooner).recordAt?
  · intro alone
    obtain ⟨inner, frame, lies, same⟩ := opened.foldl above
    have nothingInside : inner = [] := by
      rw [depth, lies, List.length_append, List.length_cons] at alone
      exact List.eq_nil_of_length_eq_zero (by rw [depth] at alone; omega)
    rw [nothingInside, List.nil_append] at lies
    have closed := pop_of_kind lies
    rw [same.kind] at closed
    exact ⟨frame, _, closed, same.kind, same.items, same.restore, rfl, rfl⟩

def insideLoop : LoopStack :=
  after [.push .loop [.null, .null, .null] .null, .advance .loop, .advance .loop]

/-- What can happen inside a menu: steps and closes of other kinds than the innermost, which fail, a
step too many, and a loop without items. -/
def insideMenu : List Change :=
  [.pop .loop, .advance .simpleMenu, .push .loop [] (.bool true), .advance .loop, .pop .simpleMenu,
    .pop .loop, .advance .loop, .advance .simpleMenu]

theorem insideMenu_leaves_no_trace :
    StaysAbove insideLoop.depth (insideLoop.push .simpleMenu [.bool false] .null) insideMenu ∧
      insideLoop.depth = 1 ∧ ∃ frame rest,
        (insideMenu.foldl apply (insideLoop.push .simpleMenu [.bool false] .null)).pop .simpleMenu =
          .ok (frame, rest) ∧
        frame.kind = .simpleMenu ∧ frame.items = [.bool false] ∧ frame.restore = .null ∧
        rest.frames = insideLoop.frames ∧ rest.metadata? = insideLoop.metadata? := by
  have above : StaysAbove insideLoop.depth (insideLoop.push .simpleMenu [.bool false] .null)
      insideMenu := by
    simp only [insideMenu, staysAbove_cons, staysAbove_nil]
    decide
  exact ⟨above, rfl, (closed_loop_leaves_no_trace _ _ _ _ _ above).2 rfl⟩

end ThemeTemplates.LoopStack
