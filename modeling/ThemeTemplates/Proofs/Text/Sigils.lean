import ThemeTemplates.Proofs.Text.Division
import ThemeTemplates.Proofs.Text.Unwrapping

/-!
# Sigils and the rest of a text

Only a sigil in front of a name is dropped, so both ends of a text still show what they showed, and
blanks, brackets and commas stand where they stood. A text may be unwrapped or split before its
sigils are dropped or afterwards.
-/

namespace ThemeTemplates

theorem not_sigil_of_isWordStart {c : Char} (h : isWordStart c = true) : c ≠ '$' := by
  rintro rfl
  cases h

theorem not_wordStart_of_closing {c : Char} (h : isClosing c = true) : isWordStart c = false := by
  simp only [isClosing, Bool.or_eq_true, beq_iff_eq] at h
  rcases h with (rfl | rfl) | rfl <;> rfl

theorem getLast?_dropSigils (q : Quotation) (text : List Char) :
    (dropSigils q text).getLast? = text.getLast? := by
  induction text generalizing q with
  | nil => rfl
  | cons c rest ih =>
      simp only [dropSigils]
      split
      · next dropped =>
          cases rest with
          | nil => simp at dropped
          | cons d rest => rw [ih, List.getLast?_cons_cons]
      · rw [List.getLast?_cons, List.getLast?_cons, ih]

theorem dropSigils_eq_nil_iff {q : Quotation} {text : List Char} :
    dropSigils q text = [] ↔ text = [] := by
  rw [← List.getLast?_eq_none_iff, getLast?_dropSigils, List.getLast?_eq_none_iff]

/-- The first character of a text stays, unless it is a sigil and a name starts right behind it. -/
theorem pageExpression_cons (c : Char) (rest : List Char) :
    pageExpression (c :: rest) = c :: dropSigils (.next .outside c) rest ∨
      ∃ d later, isWordStart d = true ∧ rest = d :: later ∧
        pageExpression (c :: rest) = d :: dropSigils (.next .outside d) later := by
  unfold pageExpression
  by_cases dropped : (Quotation.outside == .outside && c == '$' && rest.head?.any isWordStart) =
      true
  · right
    have named : rest.head?.any isWordStart = true := (Bool.and_eq_true_iff.mp dropped).2
    cases rest with
    | nil => cases named
    | cons d later =>
        have kept : d ≠ '$' := not_sigil_of_isWordStart named
        refine ⟨d, later, named, rfl, ?_⟩
        rw [dropSigils, if_pos dropped, dropSigils]
        simp [kept]
  · left
    rw [dropSigils, if_neg dropped]

section

variable {text before after : List Char}

theorem pageExpression_blanks (blankBefore : ∀ c ∈ before, isBlank c = true)
    (blankAfter : ∀ c ∈ after, isBlank c = true) :
    pageExpression (before ++ text ++ after) = before ++ pageExpression text ++ after := by
  have noSigil : ∀ {blanks : List Char}, (∀ c ∈ blanks, isBlank c = true) → '$' ∉ blanks :=
    fun blank hmem => (Part.blank_noWord (blank _ hmem)).2.2 rfl
  have starts : after.head?.any isWordStart = false := by
    rcases Part.startsBlank blankAfter with rfl | starts
    · rfl
    · exact starts
  have ends : before.getLast? = some '$' → (text ++ after).head?.any isWordStart = false :=
    fun last => absurd rfl (Part.endsWord_blanks blankBefore _ last).2
  unfold pageExpression
  rw [List.append_assoc, dropSigils_append ends, dropSigils_append fun _ => starts,
    Part.outside_after_blanks blankBefore, dropSigils_of_noSigil (noSigil blankBefore),
    dropSigils_of_noSigil (noSigil blankAfter), List.append_assoc]

protected theorem Visible.pageExpression (h : Visible text) : Visible (pageExpression text) := by
  obtain ⟨first, last⟩ := h
  refine ⟨?_, by rwa [ThemeTemplates.pageExpression, getLast?_dropSigils]⟩
  cases text with
  | nil => cases first
  | cons c rest =>
      rcases pageExpression_cons c rest with kept | ⟨d, later, start, -, named⟩
      · rw [kept]
        exact first
      · rw [named]
        simp [visible_of_word (isWordStart_isWordChar start)]

theorem trim_pageExpression (text : List Char) :
    trim (pageExpression text) = pageExpression (trim text) := by
  obtain ⟨before, after, whole, blankBefore, blankAfter⟩ := trim_spec text
  have shown : trim (pageExpression (trim text)) = pageExpression (trim text) := by
    by_cases empty : trim text = []
    · rw [empty]
      rfl
    · exact (visible_trim empty).pageExpression.trim_eq
  conv_lhs => rw [whole, pageExpression_blanks blankBefore blankAfter]
  rw [trim_append_blanks blankAfter, trim_blanks_append blankBefore, shown]

end

/-! ### Layers around a text -/

theorem pageExpression_parenthesis (rest : List Char) :
    pageExpression ('(' :: rest) = '(' :: pageExpression rest := rfl

theorem pageExpression_append_closing {close : Char} (closing : isClosing close = true)
    (inner : List Char) : pageExpression (inner ++ [close]) = pageExpression inner ++ [close] := by
  have noSigil : '$' ∉ [close] := by
    rintro hmem
    rw [← List.mem_singleton.mp hmem] at closing
    cases closing
  have noName : [close].head?.any isWordStart = false := not_wordStart_of_closing closing
  unfold pageExpression
  rw [dropSigils_append fun _ => noName, dropSigils_of_noSigil noSigil]

theorem contained_pageExpression_iff {text : List Char} :
    Contained (pageExpression text) ↔ Contained text := by
  unfold Contained
  rw [← run?_dropSigils {} text]
  rfl

protected theorem Counted.pageExpression {list inner : List Char} (h : Counted list inner) :
    Counted (pageExpression list) (pageExpression inner) := by
  obtain ⟨close, rfl, closing, contained⟩ := h
  refine ⟨close, ?_, closing, contained.pageExpression⟩
  rw [pageExpression_parenthesis, pageExpression_append_closing closing]

theorem counted_of_pageExpression {list inner : List Char}
    (h : Counted (pageExpression list) inner) :
    ∃ inner', Counted list inner' ∧ pageExpression inner' = inner := by
  obtain ⟨close, whole, closing, contained⟩ := h
  obtain ⟨rest, rfl⟩ : ∃ rest, list = '(' :: rest := by
    cases list with
    | nil => cases whole
    | cons c rest =>
        rcases pageExpression_cons c rest with kept | ⟨d, later, start, -, named⟩
        · exact ⟨rest, by rw [(List.cons.inj (kept.symm.trans whole)).1]⟩
        · rw [(List.cons.inj (named.symm.trans whole)).1] at start
          cases start
  rw [pageExpression_parenthesis, List.cons.injEq] at whole
  obtain ⟨inner', rfl⟩ : ∃ inner', rest = inner' ++ [close] := by
    have last := getLast?_dropSigils .outside rest
    rw [show dropSigils .outside rest = inner ++ [close] from whole.2, List.getLast?_concat] at last
    exact List.getLast?_eq_some_iff.mp last.symm
  rw [pageExpression_append_closing closing] at whole
  obtain ⟨same, -⟩ := List.append_inj' whole.2 rfl
  rw [← same, contained_pageExpression_iff] at contained
  exact ⟨inner', ⟨close, rfl, closing, contained⟩, same⟩

protected theorem Stripped.pageExpression {text : List Char} (h : Stripped text) :
    Stripped (pageExpression text) := by
  refine ⟨by rw [trim_pageExpression, h.trimmed], fun inner layer => ?_⟩
  obtain ⟨inner', layer, -⟩ := counted_of_pageExpression layer
  exact h.noLayer inner' layer

protected theorem Peels.pageExpression {text left : List Char} (h : Peels Counted text left) :
    Peels Counted (pageExpression text) (pageExpression left) := by
  induction h with
  | nothing => exact .nothing _
  | blanks blankBefore blankAfter _ ih =>
      rw [pageExpression_blanks blankBefore blankAfter]
      exact .blanks blankBefore blankAfter ih
  | once outer _ ih => exact .once outer.pageExpression ih

theorem unwrap_pageExpression (text : List Char) :
    unwrap (pageExpression text) = pageExpression (unwrap text) :=
  unwrap_eq_iff.mpr ⟨(peels_unwrap text).pageExpression, (stripped_unwrap text).pageExpression⟩

/-! ### Parts of a text -/

theorem Nesting.after_dropSigils (n : Nesting) (text : List Char) :
    n.after (dropSigils n.quotation text) = n.after text := by
  induction text generalizing n with
  | nil => rfl
  | cons c text ih =>
      simp only [dropSigils]
      split
      · next dropped =>
          simp only [Bool.and_eq_true, beq_iff_eq] at dropped
          obtain ⟨⟨outside, rfl⟩, -⟩ := dropped
          rw [ih, after_cons, next_sigil outside]
      · rw [after_cons, after_cons, ← quotation_next, ih]

theorem settled_pageExpression_iff {text : List Char} :
    Settled true (pageExpression text) ↔ Settled true text := by
  rw [settled_iff_atTop, settled_iff_atTop, ← Nesting.after_dropSigils {} text]
  rfl

theorem uncut_pageExpression_iff {text : List Char} :
    Uncut ',' (pageExpression text) ↔ Uncut ',' text := by
  rw [uncut_comma_iff, uncut_comma_iff, undivided_pageExpression_iff]

theorem pageExpression_append_comma {piece : List Char} (settled : Settled true piece)
    (text : List Char) :
    pageExpression (piece ++ ',' :: text) = pageExpression piece ++ ',' :: pageExpression text := by
  have outside : Quotation.after .outside piece = .outside := by
    have reached := Nesting.quotation_after {} piece
    rw [settled.after] at reached
    exact reached.symm
  have comma : dropSigils .outside (',' :: text) = ',' :: dropSigils .outside text := rfl
  unfold pageExpression
  rw [dropSigils_append fun _ => rfl, outside, comma]

protected theorem Separation.pageExpression {text : List Char} {pieces : List (List Char)}
    (h : Separation ',' text pieces) :
    Separation ',' (pageExpression text) (pieces.map pageExpression) := by
  induction h with
  | whole uncut => exact .whole (uncut_pageExpression_iff.mpr uncut)
  | cut neutral settled uncut _ ih =>
      rw [pageExpression_append_comma settled]
      exact .cut neutral (settled_pageExpression_iff.mpr settled)
        (uncut_pageExpression_iff.mpr uncut) ih

theorem splitTopLevel_pageExpression (text : List Char) :
    splitTopLevel ',' (pageExpression text) = (splitTopLevel ',' text).map pageExpression := by
  have pieces := (separation_splitPieces ',' text).pageExpression.splitPieces_eq
  have trimmed : ((splitPieces ',' {} text).map pageExpression).map trim =
      ((splitPieces ',' {} text).map trim).map pageExpression := by
    simp [trim_pageExpression]
  have blank : ∀ parts : List (List Char), parts.map pageExpression = [[]] ↔ parts = [[]] := by
    simp [List.map_eq_singleton_iff, pageExpression, dropSigils_eq_nil_iff]
  rw [splitTopLevel_eq, splitTopLevel_eq, pieces, trimmed]
  simp only [blank]
  split <;> rfl

/-- A text is its parts, with white space put back around them, joined by the separator, and it is
cut at every separator outside literals and brackets; there are no parts exactly if the text is
blank and has no such separator. Each part is trimmed and, split again, just itself. Whether sigils
are dropped before or after a text is split at its commas or unwrapped makes no difference. -/
theorem separation_lossless (separator : Char) (text : List Char) :
    (splitTopLevel separator text = [] ↔ (∀ c ∈ text, isBlank c = true) ∧ Uncut separator text) ∧
    (splitTopLevel separator text ≠ [] → ∃ pieces, Separation separator text pieces ∧
      [separator].intercalate pieces = text ∧
      List.Forall₂ Padded (splitTopLevel separator text) pieces) ∧
    (∀ part ∈ splitTopLevel separator text, trim part = part ∧
      splitTopLevel separator part = if part = [] then [] else [part]) ∧
    splitTopLevel ',' (pageExpression text) = (splitTopLevel ',' text).map pageExpression ∧
    unwrap (pageExpression text) = pageExpression (unwrap text) := by
  refine ⟨splitTopLevel_eq_nil_iff, fun shown => ?_, fun part hmem => ?_,
    splitTopLevel_pageExpression text, unwrap_pageExpression text⟩
  · obtain ⟨separation, parts⟩ := splitTopLevel_of_ne_nil shown
    exact ⟨_, separation, separation.intercalate_eq, parts ▸ forall₂_padded _⟩
  · obtain ⟨trimmed, uncut⟩ := uncut_of_mem_splitTopLevel hmem
    refine ⟨trimmed, ?_⟩
    rw [splitTopLevel_of_uncut uncut, trimmed]

/-- Three parts, the second with commas of its own, and a sigil in the last. -/
theorem separation_lossless_threeParts :
    "f(a, ',')".toList ∈ splitTopLevel ',' "x , f(a, ','),$y ".toList ∧
    splitTopLevel ',' "f(a, ',')".toList = ["f(a, ',')".toList] ∧
    splitTopLevel ',' (pageExpression "x , f(a, ','),$y ".toList) =
      ["x".toList, "f(a, ',')".toList, "y".toList] := by
  have parts : splitTopLevel ',' "x , f(a, ','),$y ".toList =
      ["x".toList, "f(a, ',')".toList, "$y".toList] := by decide
  have hmem : "f(a, ',')".toList ∈ splitTopLevel ',' "x , f(a, ','),$y ".toList := by
    rw [parts]
    exact List.mem_cons_of_mem _ List.mem_cons_self
  obtain ⟨-, -, final, commutes, -⟩ := separation_lossless ',' "x , f(a, ','),$y ".toList
  refine ⟨hmem, (final _ hmem).2, ?_⟩
  rw [commutes, parts]
  rfl

end ThemeTemplates
