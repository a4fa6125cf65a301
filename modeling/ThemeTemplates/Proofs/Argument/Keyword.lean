import ThemeTemplates.Proofs.Text.Settled

/-!
# The word between the sides of an iteration

An iteration is cut at the last ` as ` that stands between blanks and outside literals and brackets.
The search finds exactly that one.
-/

namespace ThemeTemplates.Iteration

/-- An ` as ` of a text outside its literals and brackets, with the two sides it stands between. The
blanks around the word belong to the sides. -/
structure Keyword (text before after : List Char) : Prop where
  whole : text = before ++ 'a' :: 's' :: after
  settled : Settled true before
  blankBefore : before.getLast?.any isAsciiBlank = true
  blankAfter : after.head?.any isAsciiBlank = true

/-- The last ` as ` of a text outside its literals and brackets. -/
structure LastKeyword (text before after : List Char) : Prop extends Keyword text before after where
  last : ∀ before' after', Keyword text before' after' → before'.length ≤ before.length

/-- A search that begins anywhere passes over no keyword without finding a later one. -/
theorem splitAs_isSome {before after : List Char} {blank : Char}
    (isBlank : isAsciiBlank blank = true) (n : Nesting) (front : Option Char)
    (top : (n.after before).atTop = true)
    (ends : (before.getLast?.or front).any isAsciiBlank = true) :
    ∃ parts, splitAs n front (before ++ 'a' :: 's' :: blank :: after) = some parts ∧
      before.length ≤ parts.1.length := by
  induction before generalizing n front with
  | nil =>
      have here : front.any isAsciiBlank = true := ends
      have atTop : n.atTop = true := top
      rw [List.nil_append]
      unfold splitAs
      split
      · exact ⟨_, rfl, Nat.zero_le _⟩
      · simp [here, atTop, isBlank]
  | cons c before ih =>
      have last : (before.getLast?.or (some c)).any isAsciiBlank = true := by
        cases before with
        | nil => simpa using ends
        | cons d before =>
            have some := List.getLast?_eq_some_getLast (List.cons_ne_nil d before)
            rw [List.getLast?_cons_cons, some] at ends
            rw [some]
            exact ends
      obtain ⟨parts, found, longer⟩ := ih (n.next c) (some c) top last
      refine ⟨(c :: parts.1, parts.2), ?_, Nat.succ_le_succ longer⟩
      rw [List.cons_append]
      unfold splitAs
      rw [found]

namespace Keyword

variable {text before after : List Char}

theorem of_splitAs (found : splitAs {} none text = some (before, after)) :
    Keyword text before after := by
  obtain ⟨whole, top, blankBefore⟩ := Part.splitAs_spec found
  obtain ⟨blank, rest, rfl, isBlank⟩ := Part.splitAs_blank found
  exact ⟨whole, (settled_iff_atTop before).mpr top, by simpa using blankBefore, isBlank⟩

theorem splitAs_isSome (h : Keyword text before after) :
    ∃ parts, splitAs {} none text = some parts ∧ before.length ≤ parts.1.length := by
  obtain ⟨rfl, settled, blankBefore, blankAfter⟩ := h
  cases after with
  | nil => cases blankAfter
  | cons blank rest =>
      refine Iteration.splitAs_isSome blankAfter {} none ((settled_iff_atTop before).mp settled) ?_
      simpa using blankBefore

end Keyword

theorem splitAs_eq_some_iff {text before after : List Char} :
    splitAs {} none text = some (before, after) ↔ LastKeyword text before after := by
  constructor
  · intro found
    refine ⟨.of_splitAs found, fun before' after' other => ?_⟩
    obtain ⟨parts, found', longer⟩ := other.splitAs_isSome
    cases found.symm.trans found'
    exact longer
  · intro h
    obtain ⟨⟨before', after'⟩, found, longer⟩ := h.toKeyword.splitAs_isSome
    have other := Keyword.of_splitAs found
    have sameLength : before.length = before'.length :=
      Nat.le_antisymm longer (h.last before' after' other)
    obtain ⟨rfl, rest⟩ := List.append_inj (h.whole.symm.trans other.whole) sameLength
    cases rest
    exact found

example : splitAs {} none "f('a as b') as $c (as d)".toList =
    some ("f('a as b') ".toList, " $c (as d)".toList) := by
  rfl

/-! ### A binding in one piece behind the word -/

/-- In front of blanks and a text without any, the word is the last keyword if it is one at all. -/
theorem lastKeyword_of_piece {source front piece : List Char} (settled : Settled true source)
    (ends : source.getLast?.any isAsciiBlank = true) (nonempty : front ≠ [])
    (blank : ∀ c ∈ front, isAsciiBlank c = true) (inPiece : ∀ c ∈ piece, isAsciiBlank c = false) :
    LastKeyword (source ++ 'a' :: 's' :: (front ++ piece)) source (front ++ piece) := by
  obtain ⟨first, more, rfl⟩ := List.exists_cons_of_ne_nil nonempty
  refine ⟨⟨rfl, settled, ends, blank first List.mem_cons_self⟩, fun before after other => ?_⟩
  obtain ⟨whole, -, -, blankAfter⟩ := other
  by_contra longer
  rw [Nat.not_le] at longer
  obtain ⟨between, rfl⟩ : source <+: before :=
    List.prefix_of_prefix_length_le ⟨_, rfl⟩ ⟨_, whole.symm⟩ longer.le
  rw [List.append_assoc, List.append_cancel_left_eq] at whole
  match between with
  | [] => simp at longer
  | [_] => simp at whole
  | _ :: _ :: between =>
      obtain ⟨space, rest, rfl⟩ : ∃ space rest, after = space :: rest := by
        cases after with
        | nil => cases blankAfter
        | cons space rest => exact ⟨space, rest, rfl⟩
      have blankSpace : isAsciiBlank space = true := blankAfter
      simp only [List.cons_append, List.cons.injEq] at whole
      have cut : (first :: more) ++ piece = between ++ 'a' :: 's' :: space :: rest := whole.2.2
      -- The later word would begin among the blanks, or the blank behind it stand in the piece.
      rcases List.append_eq_append_iff.mp cut with ⟨front', rfl, tail⟩ | ⟨front', whole', tail⟩
      · have inside := inPiece space (by rw [tail]; simp)
        rw [blankSpace] at inside
        cases inside
      · cases front' with
        | nil =>
            have inside := inPiece space (by rw [List.nil_append] at tail; simp [← tail])
            rw [blankSpace] at inside
            cases inside
        | cons letter front' =>
            obtain ⟨rfl, -⟩ := List.cons.inj tail
            have blankLetter := blank 'a' (by rw [whole']; simp)
            cases blankLetter

/-- In front of a variable the word is the last keyword, if it is one at all. -/
theorem lastKeyword_variable {side name : List Char} (letters : ∀ c ∈ name, isWordChar c = true)
    (settled : Settled true side) (blankBefore : side.getLast?.any isAsciiBlank = true) :
    LastKeyword (side ++ 'a' :: 's' :: ' ' :: '$' :: name) side (' ' :: '$' :: name) :=
  lastKeyword_of_piece settled blankBefore (List.cons_ne_nil ' ' [])
    (List.forall_mem_singleton.mpr rfl)
    (List.forall_mem_cons.mpr ⟨rfl, fun c hmem => not_isAsciiBlank_of_isWordChar (letters c hmem)⟩)

end ThemeTemplates.Iteration
