import ThemeTemplates.Proofs.Text.Brackets

/-!
# Nothing left to take off

Taking off blanks and brackets around a text ends where neither is left, and this determines the
result. So a text that has been unwrapped stays as it is, and white space and parentheses put around
a contained text change nothing.
-/

namespace ThemeTemplates

/-- A text without blanks at its ends and without a layer around it. -/
structure Stripped (text : List Char) : Prop where
  trimmed : trim text = text
  noLayer : ∀ inner, ¬ Counted text inner

def Parenthesized (list inner : List Char) : Prop :=
  list = '(' :: (inner ++ [')'])

theorem Stripped.unwrap_eq {text : List Char} (h : Stripped text) : unwrap text = text := by
  have missing : unwrapOnce (trim text) = none := by
    rw [h.trimmed, Option.eq_none_iff_forall_ne_some]
    exact fun inner found => h.noLayer inner (unwrapOnce_eq_some_iff.mp found)
  rw [unwrap_of_none missing, h.trimmed]

theorem stripped_unwrap (text : List Char) : Stripped (unwrap text) := by
  refine ⟨trim_unwrap text, fun inner layer => ?_⟩
  induction text using unwrap.induct with
  | case1 text inner' found ih =>
      rw [unwrap_of_some found] at layer
      exact ih layer
  | case2 text missing =>
      rw [unwrap_of_none missing] at layer
      cases missing.symm.trans (unwrapOnce_eq_some_iff.mpr layer)

theorem unwrap_of_trim_eq {first second : List Char} (same : trim first = trim second) :
    unwrap first = unwrap second := by
  cases found : unwrapOnce (trim second) with
  | some inner => rw [unwrap_of_some found, unwrap_of_some ((congrArg unwrapOnce same).trans found)]
  | none => rw [unwrap_of_none found, unwrap_of_none ((congrArg unwrapOnce same).trans found), same]

theorem Counted.unwrap_eq {list inner : List Char} (h : Counted list inner) :
    unwrap list = unwrap inner :=
  unwrap_of_some (h.trim_eq.symm ▸ unwrapOnce_eq_some_iff.mpr h)

theorem Peels.unwrap_eq {text left : List Char} (h : Peels Counted text left) :
    unwrap text = unwrap left := by
  induction h with
  | nothing => rfl
  | blanks blankBefore blankAfter _ ih =>
      refine (unwrap_of_trim_eq ?_).trans ih
      rw [trim_append_blanks blankAfter, trim_blanks_append blankBefore]
  | once outer _ ih => exact outer.unwrap_eq.trans ih

/-- Whatever way blanks and layers are taken off until none is left, the same text is left. -/
theorem unwrap_eq_iff {text left : List Char} :
    unwrap text = left ↔ Peels Counted text left ∧ Stripped left := by
  constructor
  · rintro rfl
    exact ⟨peels_unwrap text, stripped_unwrap text⟩
  · rintro ⟨peels, stripped⟩
    rw [peels.unwrap_eq, stripped.unwrap_eq]

/-! ### Parentheses put around a text -/

theorem contained_blanks {text : List Char} (blank : ∀ c ∈ text, isBlank c = true) :
    Contained text :=
  run?_blanks blank 0

theorem Contained.parenthesized {list inner : List Char} (h : Contained inner)
    (outer : Parenthesized list inner) : Contained list := by
  subst outer
  have settled : Settled false inner := settled_of_after (Nesting.after_of_run? h) fun _ => h
  exact (Settled.brackets rfl rfl settled .nil).contained

/-- Parentheses around a contained text are layers, whatever blanks stand between them. -/
theorem Contained.peels {wrapped text : List Char} (h : Contained text)
    (peels : Peels Parenthesized wrapped text) : Contained wrapped ∧
    Peels Counted wrapped text := by
  induction peels with
  | nothing => exact ⟨h, .nothing _⟩
  | blanks blankBefore blankAfter _ ih =>
      obtain ⟨contained, counted⟩ := ih h
      exact ⟨((contained_blanks blankBefore).append contained).append (contained_blanks blankAfter),
        .blanks blankBefore blankAfter counted⟩
  | once outer _ ih =>
      obtain ⟨contained, counted⟩ := ih h
      exact ⟨contained.parenthesized outer, .once ⟨')', outer, rfl, contained⟩ counted⟩

/-- Unwrapping a text twice is unwrapping it once, and unwrapping it absorbs white space and any
number of parentheses around a contained text. What it leaves is the one text that blanks and layers
can be taken off to reach and that has none left. -/
theorem unwrap_absorbs_wrapping (text : List Char) :
    unwrap (unwrap text) = unwrap text ∧
    (Contained text → ∀ wrapped, Peels Parenthesized wrapped text → unwrap wrapped = unwrap text) ∧
    ∀ left, unwrap text = left ↔ Peels Counted text left ∧ Stripped left :=
  ⟨(stripped_unwrap text).unwrap_eq, fun contained _ peels => (contained.peels peels).2.unwrap_eq,
    fun _ => unwrap_eq_iff⟩

/-- A list whose literal holds a parenthesis, in two pairs of parentheses with white space
around. -/
theorem unwrap_absorbs_around_literal : Contained "'a)', (b)".toList ∧
    Peels Parenthesized " (\n('a)', (b)) )".toList "'a)', (b)".toList ∧
    unwrap " (\n('a)', (b)) )".toList = unwrap "'a)', (b)".toList := by
  have contained : Contained "'a)', (b)".toList := rfl
  have inner : Peels Parenthesized "('a)', (b))".toList "'a)', (b)".toList :=
    .once (show Parenthesized _ "'a)', (b)".toList from rfl) (.nothing _)
  have spaced : Peels Parenthesized (['\n'] ++ "('a)', (b))".toList ++ [' ']) "'a)', (b)".toList :=
    .blanks (List.all_eq_true.mp rfl) (List.all_eq_true.mp rfl) inner
  have outer : Peels Parenthesized ([' '] ++ "(\n('a)', (b)) )".toList ++ []) "'a)', (b)".toList :=
    .blanks (List.all_eq_true.mp rfl) (List.all_eq_true.mp rfl)
      (.once (show Parenthesized _ "\n('a)', (b)) ".toList from rfl) spaced)
  exact ⟨contained, outer, (unwrap_absorbs_wrapping _).2.1 contained _ outer⟩

end ThemeTemplates
