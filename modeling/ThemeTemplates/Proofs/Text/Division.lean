import ThemeTemplates.Proofs.Text.Separation

/-!
# Texts without a dividing comma

A comma divides a text if it stands outside literals and brackets. A list of arguments that is not
divided is a single argument. Blanks around a text, sigils in it and the word between the sides of
an iteration divide nothing.
-/

namespace ThemeTemplates

/-- No comma of a text stands outside literals and brackets, for a reader that begins in some
state. -/
def UndividedFrom (n : Nesting) (text : List Char) : Prop :=
  ∀ before after, text = before ++ ',' :: after → (n.after before).atTop = false

/-- No comma of a text stands outside its literals and brackets. -/
abbrev Undivided (text : List Char) : Prop :=
  UndividedFrom {} text

section

variable {n : Nesting} {text first second : List Char} {c : Char}

theorem undividedFrom_nil (n : Nesting) : UndividedFrom n [] :=
  fun _ _ split => absurd split.symm (by simp)

theorem undividedFrom_cons :
    UndividedFrom n (c :: text) ↔ ¬ (n.atTop = true ∧ c = ',') ∧ UndividedFrom (n.next c) text := by
  constructor
  · intro whole
    refine ⟨fun ⟨top, same⟩ => ?_, fun before after split => ?_⟩
    · have inside : n.atTop = false := whole [] text (by rw [same]; rfl)
      exact absurd (top.symm.trans inside) (by decide)
    · exact whole (c :: before) after (by rw [split, List.cons_append])
  · rintro ⟨here, later⟩ before after split
    cases before with
    | nil =>
        rw [List.nil_append, List.cons.injEq] at split
        exact Bool.eq_false_iff.mpr fun top => here ⟨top, split.1⟩
    | cons d before =>
        rw [List.cons_append, List.cons.injEq] at split
        obtain ⟨rfl, split⟩ := split
        exact later before after split

theorem undividedFrom_append : UndividedFrom n (first ++ second) ↔
    UndividedFrom n first ∧ UndividedFrom (n.after first) second := by
  induction first generalizing n with
  | nil => exact (and_iff_right (undividedFrom_nil n)).symm
  | cons c first ih =>
      rw [List.cons_append, undividedFrom_cons, undividedFrom_cons, ih, and_assoc]; rfl

theorem undividedFrom_of_noComma (noComma : ',' ∉ text) (n : Nesting) : UndividedFrom n text :=
  fun _ _ split => absurd (split ▸ List.mem_append_right _ List.mem_cons_self) noComma

/-- Inside brackets nothing divides a text that keeps its own brackets to itself. -/
theorem undividedFrom_within (contained : Contained text) : UndividedFrom { depth := 1 } text := by
  intro before after split
  rw [Contained, split, Nesting.run?_append] at contained
  obtain ⟨m, ran, -⟩ := Option.bind_eq_some_iff.mp contained
  have deeper : Nesting.after { depth := 1 } before = m.under 1 :=
    Nesting.after_of_run? (by simpa [Nesting.under] using Nesting.run?_under ran 1)
  rw [deeper]
  simp [Nesting.atTop, Nesting.under]

theorem noComma_of_blanks (blank : ∀ c ∈ text, isBlank c = true) : ',' ∉ text :=
  fun hmem => absurd (blank ',' hmem) (by decide)

theorem undivided_trim_iff (text : List Char) : Undivided (trim text) ↔ Undivided text := by
  obtain ⟨before, after, split, blankBefore, blankAfter⟩ := trim_spec text
  have reached : Nesting.after {} before = {} := Nesting.after_of_run? (run?_blanks blankBefore 0)
  unfold Undivided
  conv_rhs => rw [split]
  rw [List.append_assoc, undividedFrom_append, undividedFrom_append, reached]
  simp only [undividedFrom_of_noComma (noComma_of_blanks blankBefore),
    undividedFrom_of_noComma (noComma_of_blanks blankAfter), true_and, and_true]

theorem undividedFrom_dropSigils (n : Nesting) (text : List Char) :
    UndividedFrom n (dropSigils n.quotation text) ↔ UndividedFrom n text := by
  induction text generalizing n with
  | nil => rfl
  | cons c text ih =>
      simp only [dropSigils]
      split
      · next dropped =>
          simp only [Bool.and_eq_true, beq_iff_eq] at dropped
          obtain ⟨⟨outside, rfl⟩, -⟩ := dropped
          rw [ih, undividedFrom_cons, Nesting.next_sigil outside]
          exact (and_iff_right fun both => absurd both.2 (by decide)).symm
      · rw [undividedFrom_cons, undividedFrom_cons, ← Nesting.quotation_next, ih]

theorem undivided_pageExpression_iff (text : List Char) :
    Undivided (pageExpression text) ↔ Undivided text :=
  undividedFrom_dropSigils {} text

/-! ### Parts between commas -/

theorem uncut_comma_iff : Uncut ',' text ↔ Undivided text := by
  have neutral : isNeutral ',' = true := rfl
  simp only [Uncut, Undivided, UndividedFrom, neutral, true_implies, settled_iff_atTop,
    Bool.not_eq_true]

/-- A text has at most one part between commas exactly if no comma divides it. -/
theorem length_splitTopLevel_iff (text : List Char) :
    (splitTopLevel ',' text).length ≤ 1 ↔ Undivided text :=
  length_splitTopLevel_le_one_iff.trans uncut_comma_iff

theorem undivided_of_mem_splitTopLevel {piece : List Char} (hmem : piece ∈ splitTopLevel ',' text) :
    Undivided piece :=
  uncut_comma_iff.mp (uncut_of_mem_splitTopLevel hmem).2

end

/-! ### Sides of an iteration -/

theorem noComma_of_isVariable {text : List Char} (isVar : isVariable text = true) : ',' ∉ text := by
  unfold isVariable at isVar
  split at isVar
  · next c rest =>
      simp only [Bool.and_eq_true, List.all_eq_true] at isVar
      rintro (_ | ⟨_, _ | ⟨_, hmem⟩⟩)
      · exact absurd isVar.1 (by decide)
      · exact absurd (isVar.2 ',' hmem) (by decide)
  · cases isVar

/-- A comma that divides what an iteration is cut out of divides its source. -/
theorem undivided_splitAs_iff {text source binding : List Char}
    (cut : Iteration.splitAs {} none text = some (source, binding))
    (bound : isVariable (trim binding) = true) : Undivided (trim source) ↔ Undivided text := by
  obtain ⟨rfl, top, -⟩ := Part.splitAs_spec cut
  have noComma : ',' ∉ binding := by
    obtain ⟨before, after, split, blankBefore, blankAfter⟩ := trim_spec binding
    rw [split, List.mem_append, List.mem_append]
    rintro ((hmem | hmem) | hmem)
    · exact noComma_of_blanks blankBefore hmem
    · exact noComma_of_isVariable bound hmem
    · exact noComma_of_blanks blankAfter hmem
  rw [undivided_trim_iff]
  unfold Undivided
  rw [undividedFrom_append]
  refine (and_iff_left (undividedFrom_of_noComma ?_ _)).symm
  simpa using noComma

end ThemeTemplates
