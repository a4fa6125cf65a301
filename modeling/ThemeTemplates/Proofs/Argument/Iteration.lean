import ThemeTemplates.Proofs.Argument.Octets
import ThemeTemplates.Proofs.Source.BareIteration
import ThemeTemplates.Proofs.Text.Brackets

/-!
# Iterations read from arguments

What the arguments of an iteration have to be and what is read from them: the trimmed sides of the
last keyword of the unwrapped text, a source that is not empty and a variable. Both readers agree on
it.
-/

namespace ThemeTemplates

/-- A letter or an underscore, and then letters, digits and underscores. -/
def Identifier (name : List Char) : Prop :=
  ∃ start rest, name = start :: rest ∧ isWordStart start = true ∧ ∀ c ∈ rest, isWordChar c = true

theorem isVariable_iff {text : List Char} :
    isVariable text = true ↔ ∃ name, text = '$' :: name ∧ Identifier name := by
  constructor
  · intro h
    unfold isVariable at h
    split at h
    · next start rest =>
        simp only [Bool.and_eq_true, List.all_eq_true] at h
        exact ⟨start :: rest, rfl, start, rest, rfl, h⟩
    · cases h
  · rintro ⟨name, rfl, start, rest, rfl, starts, letters⟩
    simpa [isVariable, starts] using letters

theorem Identifier.letters {name : List Char} (h : Identifier name) :
    ∀ c ∈ name, isWordChar c = true := by
  obtain ⟨start, rest, rfl, starts, letters⟩ := h
  exact List.forall_mem_cons.mpr ⟨isWordStart_isWordChar starts, letters⟩

theorem Identifier.getLast?_append {name : List Char} (h : Identifier name) (front : List Char) :
    ∃ c, (front ++ name).getLast? = some c ∧ isWordChar c = true := by
  have letters := h.letters
  obtain ⟨start, rest, rfl, -⟩ := h
  have nonempty := List.cons_ne_nil start rest
  refine ⟨_, ?_, letters _ (List.getLast_mem nonempty)⟩
  rw [List.getLast?_append, List.getLast?_eq_some_getLast nonempty, Option.some_or]

def CompileError.reportedBy (directive : String) : CompileError → CompileError
  | .malformed _ argument reason => .malformed directive argument reason
  | error => error

namespace Iteration

theorem ofParts_eq_ok_iff {directive : String} {raw before after source binding : List Char} :
    ofParts directive raw before after = .ok ⟨source, binding⟩ ↔
      trim before = source ∧ source ≠ [] ∧ trim after = binding ∧ isVariable binding = true := by
  unfold ofParts
  by_cases empty : (trim before).isEmpty = true
  · simp only [empty, if_true]
    constructor
    · exact fun refused => nomatch refused
    · rintro ⟨rfl, nonempty, -⟩
      exact absurd (List.isEmpty_iff.mp empty) nonempty
  · simp only [empty, Bool.false_eq_true, if_false]
    by_cases bound : isVariable (trim after) = true
    · simp only [bound, Bool.not_true, Bool.false_eq_true, if_false, Except.ok.injEq,
        Iteration.mk.injEq]
      constructor
      · rintro ⟨rfl, rfl⟩
        exact ⟨rfl, by simpa using empty, rfl, bound⟩
      · exact fun h => ⟨h.1, h.2.2.1⟩
    · simp only [bound, Bool.not_false, if_true]
      constructor
      · exact fun refused => nomatch refused
      · rintro ⟨-, -, rfl, isBound⟩
        exact absurd isBound bound

theorem ofParts_reportedBy (directive other : String) (raw before after : List Char) :
    (ofParts directive raw before after).mapError (CompileError.reportedBy other) =
      ofParts other raw before after := by
  unfold ofParts
  dsimp only
  split
  · rfl
  · split <;> rfl

theorem parse_of_keyword {directive : String} {raw before after : List Char}
    (h : LastKeyword (unwrap raw) before after) :
    parse directive raw = ofParts directive raw before after := by
  rw [parse, splitAs_eq_some_iff.mpr h]

theorem parseLoop_of_keyword {raw before after : List Char}
    (h : LastKeyword (unwrap raw) before after) :
    parseLoop raw = ofParts "loop" raw before after := by
  have nonempty : (unwrap raw).isEmpty = false := by simp [h.whole]
  unfold parseLoop
  simp only [nonempty, splitAs_eq_some_iff.mpr h, Bool.false_eq_true, if_false]

theorem Keyword.exists_last {text before after : List Char} (h : Keyword text before after) :
    ∃ before' after', LastKeyword text before' after' := by
  obtain ⟨⟨before', after'⟩, found, -⟩ := h.splitAs_isSome
  exact ⟨before', after', splitAs_eq_some_iff.mp found⟩

theorem parse_eq_ok_iff {directive : String} {raw source binding : List Char} :
    parse directive raw = .ok ⟨source, binding⟩ ↔ ∃ before after,
      LastKeyword (unwrap raw) before after ∧ trim before = source ∧ source ≠ [] ∧
        trim after = binding ∧ ∃ name, binding = '$' :: name ∧ Identifier name := by
  simp only [← isVariable_iff, ← @ofParts_eq_ok_iff directive raw]
  constructor
  · intro parsed
    cases cut : splitAs {} none (unwrap raw) with
    | none =>
        rw [parse, cut] at parsed
        cases parsed
    | some parts =>
        rw [parse, cut] at parsed
        exact ⟨parts.1, parts.2, splitAs_eq_some_iff.mp cut, parsed⟩
  · rintro ⟨before, after, isLast, parts⟩
    rw [parse_of_keyword isLast, parts]

/-! ### Arguments in parentheses -/

def wrapped : Nat → List Char → List Char
  | 0, text => text
  | layers + 1, text => '(' :: (wrapped layers text ++ [')'])

theorem contained_wrapped {text : List Char} (contained : Contained text) (layers : Nat) :
    Contained (wrapped layers text) := by
  induction layers with
  | zero => exact contained
  | succ layers ih =>
      have inside : Contained [] := rfl
      unfold Contained wrapped
      rw [Nesting.run?, Nesting.step?_opening rfl, Option.bind_some, Nesting.run?_append,
        ih.run?_at]
      rfl

/-- All parentheses around a text are taken off, and no more if the text ends in no bracket. -/
theorem unwrap_wrapped {text : List Char} (contained : Contained text) (visible : Visible text)
    (last : text.getLast?.any isClosing = false) (layers : Nat) :
    unwrap (wrapped layers text) = text := by
  induction layers with
  | zero =>
      rw [wrapped, unwrap_of_none, visible.trim_eq]
      rw [visible.trim_eq, Option.eq_none_iff_forall_ne_some]
      intro inner found
      obtain ⟨close, rfl, closing, -⟩ := unwrapOnce_eq_some_iff.mp found
      rw [← List.cons_append, List.getLast?_concat, Option.any_some, closing] at last
      cases last
  | succ layers ih =>
      have layer : Counted (wrapped (layers + 1) text) (wrapped layers text) :=
        ⟨')', rfl, rfl, contained_wrapped contained layers⟩
      rw [unwrap_of_some (layer.trim_eq.symm ▸ unwrapOnce_eq_some_iff.mpr layer), ih]

def spelled (source name : List Char) : List Char :=
  source ++ " as $".toList ++ name

theorem spelled_eq (source name : List Char) :
    spelled source name = (source ++ [' ']) ++ 'a' :: 's' :: ' ' :: '$' :: name := by
  have keyword : " as $".toList = [' ', 'a', 's', ' ', '$'] := rfl
  simp [spelled, keyword]

section Spelled

variable {source name : List Char} (trimmed : trim source = source) (nonempty : source ≠ [])
  (contained : Contained source) (named : Identifier name)

include contained named

theorem contained_spelled : Contained (spelled source name) := by
  have neutral : " as $".toList.all isNeutral = true := by rfl
  rw [spelled, List.append_assoc]
  refine contained.append (contained_of_neutral fun c hmem => ?_)
  rcases List.mem_append.mp hmem with inWord | inName
  · exact List.all_eq_true.mp neutral c inWord
  · exact isNeutral_of_isWordChar (named.letters c inName)

theorem lastKeyword_spelled :
    LastKeyword (spelled source name) (source ++ [' ']) (' ' :: '$' :: name) := by
  have settled : Settled true (source ++ [' ']) := by
    rw [settled_iff_atTop, Nesting.after_of_run? (contained.append (show Contained [' '] from rfl))]
    rfl
  rw [spelled_eq]
  refine lastKeyword_variable named.letters settled ?_
  rw [List.getLast?_concat]
  rfl

include trimmed nonempty

theorem unwrap_spelled (layers : Nat) :
    unwrap (wrapped layers (spelled source name)) = spelled source name := by
  obtain ⟨c, last, word⟩ := named.getLast?_append (source ++ " as $".toList)
  rw [← spelled] at last
  have ends : Visible source := trimmed ▸ visible_trim (trimmed.symm ▸ nonempty)
  have visible : Visible (spelled source name) := by
    refine ⟨?_, ?_⟩
    · rw [spelled, List.append_assoc, List.head?_append_of_ne_nil _ nonempty]
      exact ends.1
    · rw [last]
      simp [visible_of_word word]
  refine unwrap_wrapped (contained_spelled contained named) visible ?_ layers
  rw [last]
  exact (isNeutral_iff.mp (isNeutral_of_isWordChar word)).2.2

omit contained in
theorem ofParts_spelled (directive : String) (raw : List Char) :
    ofParts directive raw (source ++ [' ']) (' ' :: '$' :: name) = .ok ⟨source, '$' :: name⟩ := by
  have blank : ∀ c ∈ [' '], isBlank c = true := List.forall_mem_singleton.mpr rfl
  obtain ⟨c, last, word⟩ := named.getLast?_append ['$']
  have binding : Visible ('$' :: name) :=
    ⟨by rfl, by simpa [visible_of_word word] using congrArg (Option.any fun c => !isBlank c) last⟩
  refine ofParts_eq_ok_iff.mpr ⟨?_, nonempty, ?_, isVariable_iff.mpr ⟨name, rfl, named⟩⟩
  · rw [trim_append_blanks blank, trimmed]
  · exact (trim_blanks_append blank _).trans binding.trim_eq

end Spelled

/-- What the arguments of an iteration have to be. They are cut at their last keyword, into a source
and a variable; a search over their octets cuts them at the same place, and a loop reads the same
from them. What is spelled from a source and a variable is read as these two, in any number of
parentheses. -/
theorem iteration_read_exactly (directive : String) (raw : List Char) :
    (∀ source binding, parse directive raw = .ok ⟨source, binding⟩ ↔ ∃ before after,
      LastKeyword (unwrap raw) before after ∧ trim before = source ∧ source ≠ [] ∧
        trim after = binding ∧ ∃ name, binding = '$' :: name ∧ Identifier name) ∧
    (∀ before after, LastKeyword (unwrap raw) before after →
      splitAs {} none (octets (unwrap raw)) = some (octets before, octets after)) ∧
    (∀ before after, Keyword (unwrap raw) before after →
      parseLoop raw = (parse directive raw).mapError (CompileError.reportedBy "loop")) ∧
    ∀ source name layers, trim source = source → source ≠ [] → Contained source → Identifier name →
      parse directive (wrapped layers (spelled source name)) = .ok ⟨source, '$' :: name⟩ ∧
        parseLoop (wrapped layers (spelled source name)) = .ok ⟨source, '$' :: name⟩ := by
  refine ⟨fun source binding => parse_eq_ok_iff, ?_, ?_, ?_⟩
  · intro before after isLast
    rw [splitAs_octets, splitAs_eq_some_iff.mpr isLast]
    rfl
  · intro before after keyword
    obtain ⟨before', after', isLast⟩ := keyword.exists_last
    rw [parse_of_keyword isLast, parseLoop_of_keyword isLast, ofParts_reportedBy]
  · intro source name layers trimmed nonempty contained named
    have isLast : LastKeyword (unwrap (wrapped layers (spelled source name))) (source ++ [' '])
        (' ' :: '$' :: name) := by
      rw [unwrap_spelled trimmed nonempty contained named]
      exact lastKeyword_spelled contained named
    have read := ofParts_spelled trimmed nonempty named
    exact ⟨(parse_of_keyword isLast).trans (read _ _), (parseLoop_of_keyword isLast).trans
      (read _ _)⟩

end Iteration

end ThemeTemplates
