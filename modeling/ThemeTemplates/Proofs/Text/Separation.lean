import ThemeTemplates.Proofs.Text.Brackets

/-!
# Texts between separators

A text is cut at every separator outside its literals and brackets, and there is one way to do so.
The pieces joined by the separator are the text again, and none of them can be cut further.
-/

namespace ThemeTemplates

/-- No separator of a text stands outside its literals and brackets. Quotation marks and brackets
never separate. -/
def Uncut (separator : Char) (text : List Char) : Prop :=
  isNeutral separator = true → ∀ before after, text = before ++ separator :: after →
    ¬ Settled true before

/-- A text and the pieces between all its separators outside literals and brackets. -/
inductive Separation (separator : Char) : List Char → List (List Char) → Prop
  | whole {text : List Char} (uncut : Uncut separator text) : Separation separator text [text]
  | cut {piece text : List Char} {pieces : List (List Char)} (neutral : isNeutral separator = true)
    (settled : Settled true piece) (uncut : Uncut separator piece)
    (h : Separation separator text pieces) :
    Separation separator (piece ++ separator :: text) (piece :: pieces)

def Padded (text padded : List Char) : Prop :=
  ∃ before after, padded = before ++ text ++ after ∧
    (∀ c ∈ before, isBlank c = true) ∧ ∀ c ∈ after, isBlank c = true

variable {separator : Char} {text : List Char} {pieces : List (List Char)}

/-! ### Pieces -/

theorem splitPieces_cut (neutral : isNeutral separator = true) (text : List Char) :
    splitPieces separator {} (separator :: text) = [] :: splitPieces separator {} text := by
  have here : (Nesting.atTop {} && separator == separator &&
      !(isQuote separator || isOpening separator || isClosing separator)) = true := by
    rw [beq_self_eq_true, Bool.and_true]
    exact neutral
  rw [splitPieces.eq_def]
  exact if_pos here

theorem splitPieces_kept {n : Nesting} {c : Char}
    (kept : n = {} → c = separator → isNeutral separator = false) (text : List Char) :
    ∃ piece pieces, splitPieces separator (n.next c) text = piece :: pieces ∧
      splitPieces separator n (c :: text) = (c :: piece) :: pieces := by
  have goesOn : ¬ (n.atTop && c == separator &&
      !(isQuote c || isOpening c || isClosing c)) = true := by
    simp only [Bool.and_eq_true, beq_iff_eq]
    rintro ⟨⟨top, rfl⟩, neutral⟩
    have mark : isNeutral c = false := kept (Part.eq_of_atTop top) rfl
    rw [show isNeutral c = true from neutral] at mark
    cases mark
  obtain ⟨piece, pieces, found, -⟩ := Part.splitPieces_spec separator (n.next c) text
  refine ⟨piece, pieces, found, ?_⟩
  rw [splitPieces, if_neg goesOn, found]

theorem splitPieces_of_mark (mark : isNeutral separator = false) (n : Nesting) (text : List Char) :
    splitPieces separator n text = [text] := by
  induction text generalizing n with
  | nil => rfl
  | cons c text ih =>
      obtain ⟨piece, pieces, found, whole⟩ := splitPieces_kept (fun _ _ => mark) text
      cases (ih (n.next c)).symm.trans found
      exact whole

/-- Behind a separator outside literals and brackets the pieces are those of the rest. -/
theorem splitPieces_append (neutral : isNeutral separator = true) {n : Nesting} {before : List Char}
    (top : (n.after before).atTop = true) (after : List Char) :
    splitPieces separator n (before ++ separator :: after) =
      splitPieces separator n before ++ splitPieces separator {} after := by
  induction before generalizing n with
  | nil =>
      have outside : n = {} := Part.eq_of_atTop top
      rw [outside]
      exact splitPieces_cut neutral after
  | cons c before ih =>
      have rest := ih top
      by_cases cut : n = {} ∧ c = separator
      · obtain ⟨rfl, rfl⟩ := cut
        obtain ⟨noQuote, noOpening, -⟩ := isNeutral_iff.mp neutral
        rw [Nesting.next_of_noOpening noQuote noOpening] at rest
        rw [List.cons_append, splitPieces_cut neutral, splitPieces_cut neutral, rest]
        rfl
      · have kept : n = {} → c = separator → isNeutral separator = false :=
          fun outside same => absurd ⟨outside, same⟩ cut
        obtain ⟨piece, pieces, found, short⟩ := splitPieces_kept kept before
        obtain ⟨piece', pieces', found', long⟩ :=
          splitPieces_kept kept (before ++ separator :: after)
        rw [found', found] at rest
        obtain ⟨rfl, rfl⟩ := List.cons.inj rest
        rw [List.cons_append, long, short]
        rfl

theorem splitPieces_of_uncut (uncut : Uncut separator text) :
    splitPieces separator {} text = [text] := by
  cases neutral : isNeutral separator with
  | false => exact splitPieces_of_mark neutral {} text
  | true =>
      obtain ⟨first, rest, found, ⟨rfl, rfl⟩ | ⟨following, whole, top, -⟩⟩ :=
        Part.splitPieces_spec separator {} text
      · exact found
      · exact absurd ((settled_iff_atTop first).mpr top) (uncut neutral first following whole)

/-- A separator outside literals and brackets does not stand in the first piece, which would have
ended there. -/
theorem uncut_first {first : List Char} (found : splitPieces separator {} text = first :: pieces) :
    Uncut separator first := by
  rintro neutral before after rfl settled
  obtain ⟨later, whole⟩ : ∃ later, text = before ++ separator :: later := by
    obtain ⟨first', rest', found', shape⟩ := Part.splitPieces_spec separator {} text
    cases found.symm.trans found'
    rcases shape with ⟨-, whole⟩ | ⟨following, whole, -⟩
    · exact ⟨after, whole⟩
    · exact ⟨after ++ separator :: following, by rw [whole]; simp⟩
  obtain ⟨short, more, inBefore, shape⟩ := Part.splitPieces_spec separator {} before
  rw [whole, splitPieces_append neutral ((settled_iff_atTop before).mp settled), inBefore,
    List.cons_append, List.cons.injEq] at found
  have longer : short.length ≤ before.length := by
    rcases shape with ⟨-, same⟩ | ⟨following, same, -⟩
    · rw [same]
    · rw [same]
      simp
  rw [found.1, List.length_append, List.length_cons] at longer
  omega

theorem separation_splitPieces (separator : Char) (text : List Char) :
    Separation separator text (splitPieces separator {} text) := by
  induction size : text.length using Nat.strong_induction_on generalizing text with
  | _ length ih =>
    obtain ⟨first, rest, found, shape⟩ := Part.splitPieces_spec separator {} text
    have uncut := uncut_first found
    rcases shape with ⟨rfl, rfl⟩ | ⟨following, rfl, top, rfl⟩
    · rw [found]
      exact .whole uncut
    · have neutral : isNeutral separator = true := by
        by_contra mark
        rw [Bool.not_eq_true] at mark
        simp [splitPieces_of_mark mark] at found
      rw [Part.eq_of_atTop top] at found
      rw [found]
      refine .cut neutral ((settled_iff_atTop first).mpr top) uncut
        (ih following.length ?_ following rfl)
      rw [← size, List.length_append, List.length_cons]
      omega

namespace Separation

theorem splitPieces_eq (h : Separation separator text pieces) :
    splitPieces separator {} text = pieces := by
  induction h with
  | whole uncut => exact splitPieces_of_uncut uncut
  | cut neutral settled uncut _ ih =>
      rw [splitPieces_append neutral ((settled_iff_atTop _).mp settled),
        splitPieces_of_uncut uncut, ih]
      rfl

theorem ne_nil (h : Separation separator text pieces) : pieces ≠ [] := by
  cases h <;> exact List.cons_ne_nil _ _

theorem intercalate_eq (h : Separation separator text pieces) :
    [separator].intercalate pieces = text := by
  induction h with
  | whole => exact List.intercalate_singleton
  | cut _ _ _ h ih =>
      rw [List.intercalate_cons_of_ne_nil h.ne_nil, ih, List.append_assoc]
      rfl

theorem uncut_of_mem (h : Separation separator text pieces) :
    ∀ piece ∈ pieces, Uncut separator piece := by
  induction h with
  | whole uncut => exact List.forall_mem_singleton.mpr uncut
  | cut _ _ uncut _ ih => exact List.forall_mem_cons.mpr ⟨uncut, ih⟩

theorem uncut_of_singleton {piece : List Char} (h : Separation separator text [piece]) :
    piece = text ∧ Uncut separator text := by
  cases h with
  | whole uncut => exact ⟨rfl, uncut⟩
  | cut _ _ _ h => exact absurd rfl h.ne_nil

end Separation

/-! ### Parts -/

protected theorem Uncut.trim (h : Uncut separator text) : Uncut separator (trim text) := by
  intro neutral before after whole settled
  obtain ⟨front, back, padded, blankFront, -⟩ := trim_spec text
  refine h neutral (front ++ before) (after ++ back) ?_ ?_
  · rw [padded, whole]
    simp
  · rw [settled_iff_atTop, Nesting.after_append, Nesting.after_of_run? (run?_blanks blankFront 0)]
    exact (settled_iff_atTop before).mp settled

theorem splitTopLevel_eq (separator : Char) (text : List Char) :
    splitTopLevel separator text =
      if (splitPieces separator {} text).map trim = [[]] then []
      else (splitPieces separator {} text).map trim := by
  unfold splitTopLevel
  split
  · next blank => rw [if_pos blank]
  · next shown => rw [if_neg shown]

theorem splitTopLevel_of_uncut (uncut : Uncut separator text) :
    splitTopLevel separator text = if trim text = [] then [] else [trim text] := by
  rw [splitTopLevel_eq, splitPieces_of_uncut uncut, List.map_singleton]
  simp only [List.singleton_inj]

theorem splitTopLevel_eq_nil_iff : splitTopLevel separator text = [] ↔
    (∀ c ∈ text, isBlank c = true) ∧ Uncut separator text := by
  have separation := separation_splitPieces separator text
  rw [← trim_eq_nil_iff]
  constructor
  · intro empty
    rw [splitTopLevel_eq] at empty
    split at empty
    · next blank =>
        obtain ⟨piece, single, trimmed⟩ := List.map_eq_singleton_iff.mp blank
        rw [single] at separation
        obtain ⟨rfl, uncut⟩ := separation.uncut_of_singleton
        exact ⟨trimmed, uncut⟩
    · exact absurd (List.map_eq_nil_iff.mp empty) separation.ne_nil
  · rintro ⟨blank, uncut⟩
    rw [splitTopLevel_of_uncut uncut, if_pos blank]

/-- The parts of a text, if it has any, are its pieces without the white space at their ends. -/
theorem splitTopLevel_of_ne_nil (shown : splitTopLevel separator text ≠ []) :
    Separation separator text (splitPieces separator {} text) ∧
      splitTopLevel separator text = (splitPieces separator {} text).map trim := by
  refine ⟨separation_splitPieces separator text, ?_⟩
  rw [splitTopLevel_eq] at shown ⊢
  split at shown
  · exact absurd rfl shown
  · next some => rw [if_neg some]

theorem forall₂_padded (pieces : List (List Char)) :
    List.Forall₂ Padded (pieces.map trim) pieces := by
  induction pieces with
  | nil => exact .nil
  | cons piece pieces ih => exact .cons (trim_spec piece) ih

theorem uncut_of_mem_splitTopLevel {part : List Char} (hmem : part ∈ splitTopLevel separator text) :
    trim part = part ∧ Uncut separator part := by
  obtain ⟨separation, parts⟩ := splitTopLevel_of_ne_nil (List.ne_nil_of_mem hmem)
  rw [parts] at hmem
  obtain ⟨piece, isPiece, rfl⟩ := List.mem_map.mp hmem
  exact ⟨trim_trim piece, (separation.uncut_of_mem piece isPiece).trim⟩

theorem length_splitTopLevel_le_one_iff :
    (splitTopLevel separator text).length ≤ 1 ↔ Uncut separator text := by
  constructor
  · intro few
    by_cases empty : splitTopLevel separator text = []
    · exact (splitTopLevel_eq_nil_iff.mp empty).2
    · obtain ⟨separation, parts⟩ := splitTopLevel_of_ne_nil empty
      rw [parts, List.length_map] at few
      obtain ⟨piece, single⟩ := List.length_eq_one_iff.mp
        (Nat.le_antisymm few (List.length_pos_iff.mpr separation.ne_nil))
      rw [single] at separation
      exact separation.uncut_of_singleton.2
  · intro uncut
    rw [splitTopLevel_of_uncut uncut]
    split <;> simp

end ThemeTemplates
