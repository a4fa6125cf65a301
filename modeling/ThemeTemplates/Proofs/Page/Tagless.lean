import ThemeTemplates.Page.Piece

/-!
# Text without tags

Text in which no tag is opened is kept as it stands in front of the first tag of a page, unless its
last character opens one together with the first character behind it.
-/

namespace ThemeTemplates

def Tagless (text : List Char) : Prop :=
  ∀ c d, [c, d] <:+: text → Segment.opensTag c d = false

namespace Tagless

variable {c : Char} {text : List Char}

theorem nil : Tagless [] :=
  fun _ _ inText => by cases List.infix_nil.mp inText

theorem head (h : Tagless (c :: text)) : ∀ d, text.head? = some d →
    Segment.opensTag c d = false := by
  intro d first
  obtain ⟨rest, rfl⟩ := List.head?_eq_some_iff.mp first
  exact h c d (List.prefix_append [c, d] rest).isInfix

theorem tail (h : Tagless (c :: text)) : Tagless text :=
  fun d e inText => h d e (inText.trans (List.suffix_cons c text).isInfix)

theorem noTag_behind {d : Char} (other : c ≠ '\x7b') : Segment.opensTag c d = false := by
  simp [Segment.opensTag, other]

end Tagless

namespace Piece

variable {text : List Char}

theorem splitText_append (plain : Tagless text) (last : text.getLast? ≠ some '\x7b')
    (page : List Char) :
    splitText (text ++ page) = (text ++ (splitText page).1, (splitText page).2) := by
  induction text with
  | nil => rfl
  | cons c text ih =>
      have behind : ∀ d, (text ++ page).head? = some d → Segment.opensTag c d = false := by
        cases text with
        | nil => exact fun d _ => Tagless.noTag_behind fun same => last (by rw [same]; rfl)
        | cons d text => exact plain.head
      have last' : text.getLast? ≠ some '\x7b' := by
        cases text with
        | nil => simp
        | cons d text => rwa [List.getLast?_cons_cons] at last
      have rest := ih plain.tail last'
      rw [List.cons_append]
      cases whole : text ++ page with
      | nil =>
          obtain ⟨rfl, rfl⟩ := List.append_eq_nil_iff.mp whole
          rfl
      | cons d more =>
          rw [whole] at rest behind
          rw [splitText, behind d rfl, if_neg Bool.false_ne_true, rest]
          rfl

theorem splitText_tagless (plain : Tagless text) : splitText text = (text, none) := by
  induction text with
  | nil => rfl
  | cons c text ih =>
      cases text with
      | nil => rfl
      | cons d text =>
          rw [splitText, plain.head d rfl, if_neg Bool.false_ne_true, ih plain.tail]

theorem tagless_iff : Tagless text ↔ (splitText text).2 = none := by
  refine ⟨fun plain => by rw [splitText_tagless plain], fun noTag => ?_⟩
  induction text with
  | nil => exact Tagless.nil
  | cons c text ih =>
      cases text with
      | nil =>
          intro d e inText
          have short := inText.length_le
          simp at short
      | cons d text =>
          cases opens : Segment.opensTag c d with
          | true => simp [splitText, opens] at noTag
          | false =>
              have rest : Tagless (d :: text) := ih (by simpa [splitText, opens] using noTag)
              intro e f inText
              rcases List.infix_cons_iff.mp inText with first | later
              · simp only [List.cons_prefix_cons] at first
                obtain ⟨rfl, rfl, -⟩ := first
                exact opens
              · exact rest e f later

def whole (text : List Char) (line : Nat) : List Piece :=
  if text.isEmpty then [] else [.text text line]

theorem textPiece_whole (text : List Char) (line : Nat) :
    textPiece false false text line = whole text line := by
  simp [textPiece, whole]

theorem piecesFrom_tagless (plain : Tagless text) (line : Nat) :
    piecesFrom line false text = whole text line := by
  have found := splitText_tagless plain
  rw [piecesFrom]
  split
  · next found' =>
      cases found.symm.trans found'
      exact textPiece_whole _ line
  · next found' => cases found.symm.trans found'

end Piece

end ThemeTemplates
