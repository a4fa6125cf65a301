import ThemeTemplates.Proofs.Source.Pieces
import ThemeTemplates.Proofs.Text.Brackets

/-!
# Where argument lists end

The list behind a directive is ended where a count of open brackets says so. Where the source has a
balanced list, that is its end. Where it has none, the count may still find one.
-/

namespace ThemeTemplates

namespace Pieces

variable {before : List Char} {pieces : List (List Char)} {front back : List Segment}

theorem split (h : Pieces before pieces (front ++ back)) : ∃ first last,
    pieces = first ++ last ∧ Pieces (before ++ first.flatten) last back := by
  induction front generalizing before pieces with
  | nil => exact ⟨[], pieces, rfl, by simpa using h⟩
  | cons segment front ih =>
      obtain ⟨piece, later, rfl, behind⟩ : ∃ piece later, pieces = piece :: later ∧
          Pieces (before ++ piece) later (front ++ back) := by
        cases h with
        | text _ _ _ h => exact ⟨_, _, rfl, h⟩
        | escape _ h => exact ⟨_, _, rfl, h⟩
        | directive _ _ _ _ _ _ h => exact ⟨_, _, rfl, h⟩
      obtain ⟨first, last, rfl, rest⟩ := ih behind
      exact ⟨piece :: first, last, rfl, by simpa using rest⟩

end Pieces

/-- A list is balanced if and only if some balanced list stands where it starts. -/
theorem Counted.enclosed_iff {list inner : List Char} (h : Counted list inner) (after : List Char) :
    (∃ inner, Enclosed list inner) ↔
      ∃ list' inner' rest, list ++ after = list' ++ rest ∧ Enclosed list' inner' := by
  constructor
  · rintro ⟨inner, enclosed⟩
    exact ⟨list, inner, after, rfl, enclosed⟩
  · rintro ⟨list', inner', rest, same, enclosed⟩
    obtain ⟨rfl, rfl⟩ := h.unique enclosed.counted same
    exact ⟨inner, enclosed⟩

/-- Argument lists end where a count of brackets ends them. Behind each directive of a source that
scans, its arguments stand in full: none, and no parenthesis follows, or one list by that count.
They are a balanced list if and only if the source has some balanced list there. Taking parentheses
off a text takes off blanks and lists by that count; these are pairs of parentheses around balanced
texts if and only if there are none of them or the outermost one is such a pair. -/
theorem arguments_enclosed_iff (text : List Char) :
    (∀ segments, Segment.scan text = .ok segments → ∀ front name args line back,
      segments = front ++ .directive name args line :: back →
      ∃ before blanks, ∃ pieces : List (List Char),
        text = before ++ '@' :: (name.toList ++ (blanks ++ (args ++ pieces.flatten))) ∧
          line = 1 + lineBreaks before ∧ (∀ c ∈ blanks, isSpaceOrTab c = true) ∧
          Pieces (before ++ '@' :: (name.toList ++ (blanks ++ args))) pieces back ∧
          ((args = [] ∧ (pieces.flatten.dropWhile isSpaceOrTab).head? ≠ some '(') ∨
            (∃ inner, Counted args inner) ∧
              ((∃ inner, Enclosed args inner) ↔ ∃ list inner rest,
                args ++ pieces.flatten = list ++ rest ∧ Enclosed list inner))) ∧
      Peels Counted text (unwrap text) ∧
      (Peels Enclosed text (unwrap text) ↔
        unwrap text = trim text ∨ ∃ inner, Enclosed (trim text) inner) := by
  refine ⟨fun segments scanned => ?_, peels_unwrap text, peels_unwrap_iff text⟩
  rintro front name args line back rfl
  obtain ⟨pieces, rfl, spelled⟩ := pieces_of_scan scanned
  obtain ⟨first, last, rfl, here⟩ := spelled.split
  cases here with
  | @directive _ letters blanks _ later _ _ _ _ _ gap list behind =>
      refine ⟨first.flatten, blanks, later, by simp, rfl, gap, by simpa using behind, ?_⟩
      rcases list with ⟨none, -, noList⟩ | ⟨inner, counted⟩
      · exact .inl ⟨none, noList⟩
      · exact .inr ⟨⟨inner, counted⟩, counted.enclosed_iff later.flatten⟩

def crossedList : List Char :=
  "(x]".toList

theorem scan_crossedList : Segment.scan ("@action".toList ++ crossedList) =
    .ok [.directive "action" crossedList 1] := by
  decide +kernel

theorem crossedList_enclosed_iff :
    Segment.scan ("@action".toList ++ crossedList) = .ok [.directive "action" crossedList 1] ∧
      ((∃ inner, Enclosed crossedList inner) ↔
        ∃ list inner rest, crossedList = list ++ rest ∧ Enclosed list inner) := by
  obtain ⟨before, blanks, pieces, -, -, -, behind, list⟩ :=
    (arguments_enclosed_iff _).1 _ scan_crossedList [] "action" crossedList 1 [] rfl
  refine ⟨scan_crossedList, ?_⟩
  cases behind
  rcases list with ⟨none, -⟩ | ⟨-, iff⟩
  · cases none
  · simpa using iff

theorem crossedList_accepted :
    Segment.scan ("@action".toList ++ crossedList) = .ok [.directive "action" crossedList 1] ∧
      (¬ ∃ inner, Enclosed crossedList inner) ∧ unwrap crossedList = ['x'] ∧
      ¬ Peels Enclosed crossedList (unwrap crossedList) := by
  have refused : ¬ ∃ inner, Enclosed crossedList inner := by
    rintro ⟨inner, whole, -⟩
    have last := congrArg List.getLast? whole
    rw [← List.cons_append, List.getLast?_concat] at last
    cases last
  have trimmed : trim crossedList = crossedList := rfl
  have found : unwrapOnce (trim crossedList) = some ['x'] := rfl
  have taken : unwrap crossedList = ['x'] := by
    rw [unwrap_of_some found, unwrap_of_none rfl]
    rfl
  refine ⟨scan_crossedList, refused, taken, fun peels => ?_⟩
  rcases (peels_unwrap_iff crossedList).mp peels with same | enclosed
  · rw [taken, trimmed] at same
    cases same
  · exact refused enclosed

end ThemeTemplates
