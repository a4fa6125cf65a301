import ThemeTemplates.Proofs.Argument.Octets
import ThemeTemplates.Proofs.Directive.Shape
import ThemeTemplates.Proofs.Page.Emission
import ThemeTemplates.Proofs.Text.Brackets
import ThemeTemplates.Source.Segment

/-!
# Quoted literals

Whatever text is quoted, the literal is read back as that text, and everything that looks for
brackets, separators, keywords, sigils or the ends of tags passes over it as one piece.
-/

namespace ThemeTemplates

open Nesting

/-- Every character of a text is read inside of a literal, the mark that closes it included. -/
def Within : Quotation → List Char → Prop
  | _, [] => True
  | q, c :: rest => q ≠ .outside ∧ Within (q.next c) rest

theorem decodeLiteralBody_cons {c : Char} (noMark : c ≠ '\'') (noSlash : c ≠ '\\')
    (rest : List Char) :
    decodeLiteralBody (c :: rest) =
      (decodeLiteralBody rest).map fun (text, after) => (c :: text, after) := by
  cases rest <;> simp [decodeLiteralBody, noSlash]

theorem decodeLiteralBody_escapeLiteral (text rest : List Char) :
    decodeLiteralBody (escapeLiteral text ++ '\'' :: rest) = some (text, rest) := by
  induction text with
  | nil => rfl
  | cons c text ih =>
      unfold escapeLiteral
      split
      · simp [decodeLiteralBody, ih]
      · next plain =>
          simp only [Bool.or_eq_true, beq_iff_eq, not_or] at plain
          rw [List.cons_append, decodeLiteralBody_cons plain.2 plain.1, ih]
          rfl

theorem decodeLiteral_encodeLiteral (text rest : List Char) :
    decodeLiteral (encodeLiteral text ++ rest) = some (text, rest) := by
  simpa [encodeLiteral, decodeLiteral] using decodeLiteralBody_escapeLiteral text rest

theorem within_escapeLiteral (text : List Char) :
    Within (.inside '\'' false) (escapeLiteral text ++ ['\'']) ∧
      Quotation.after (.inside '\'' false) (escapeLiteral text ++ ['\'']) = .outside := by
  induction text with
  | nil => exact ⟨⟨Quotation.noConfusion, trivial⟩, rfl⟩
  | cons c text ih =>
      unfold escapeLiteral
      split
      · exact ⟨⟨Quotation.noConfusion, Quotation.noConfusion, ih.1⟩, ih.2⟩
      · next plain =>
          simp only [Bool.or_eq_true, beq_iff_eq, not_or] at plain
          have step : Quotation.next (.inside '\'' false) c = .inside '\'' false := by
            simp [Quotation.next, plain]
          refine ⟨⟨Quotation.noConfusion, ?_⟩, ?_⟩
          · rw [step]
            exact ih.1
          · rw [List.cons_append, Quotation.after, List.foldl_cons, step]
            exact ih.2

/-! ### Readers inside of literals -/

section Within

variable {q : Quotation} {text : List Char}

theorem next_of_inside (inside : q ≠ .outside) (depth : Nat) (c : Char) :
    next ⟨q, depth⟩ c = ⟨q.next c, depth⟩ := by
  cases q with
  | outside => exact absurd rfl inside
  | inside mark escaped => rfl

theorem Within.splitTagEnd (within : Within q text) {kind : Char} (noComment : kind ≠ '#')
    (rest : List Char) :
    Segment.splitTagEnd kind q (text ++ rest) =
      (Segment.splitTagEnd kind (q.after text) rest).map fun (tag, after) =>
        (text ++ tag, after) := by
  induction text generalizing q with
  | nil => simp [Quotation.after]
  | cons c text ih =>
      obtain ⟨inside, within⟩ := within
      have step : Segment.splitTagEnd kind q (c :: (text ++ rest)) =
          (Segment.splitTagEnd kind (q.next c) (text ++ rest)).map
            fun (tag, after) => (c :: tag, after) := by
        cases text ++ rest with
        | nil => rfl
        | cons d more => simp [Segment.splitTagEnd, inside, noComment]
      rw [List.cons_append, step, ih within, Option.map_map]
      rfl

theorem Within.dropSigils (within : Within q text) (rest : List Char) :
    dropSigils q (text ++ rest) = text ++ ThemeTemplates.dropSigils (q.after text) rest := by
  induction text generalizing q with
  | nil => rfl
  | cons c text ih =>
      obtain ⟨inside, within⟩ := within
      have stays : (q == .outside && c == '$' && (text ++ rest).head?.any isWordStart) = false := by
        simp [inside]
      rw [List.cons_append, ThemeTemplates.dropSigils, stays, ih within]
      rfl

theorem Within.splitPieces (within : Within q text) (separator : Char) (depth : Nat) :
    splitPieces separator ⟨q, depth⟩ text = [text] := by
  induction text generalizing q with
  | nil => rfl
  | cons c text ih =>
      obtain ⟨inside, within⟩ := within
      have noCut : (atTop ⟨q, depth⟩ && c == separator &&
          !(isQuote c || isOpening c || isClosing c)) = false := by
        simp [atTop, inside]
      rw [ThemeTemplates.splitPieces, noCut, next_of_inside inside, ih within]
      rfl

theorem Within.splitAs (within : Within q text) (depth : Nat) (front : Option Char) :
    Iteration.splitAs ⟨q, depth⟩ front text = none := by
  induction text generalizing q front with
  | nil => rfl
  | cons c text ih =>
      obtain ⟨inside, within⟩ := within
      rw [Iteration.splitAs_cons, next_of_inside inside, ih within]
      simp [atTop, inside]

end Within

/-! ### Whole literals -/

section Literal

variable (text rest : List Char)

theorem visible_encodeLiteral : Visible (encodeLiteral text) := by
  refine ⟨rfl, ?_⟩
  rw [encodeLiteral, ← List.cons_append, List.getLast?_concat]
  rfl

theorem splitAtClose_encodeLiteral :
    splitAtClose { depth := 1 } (encodeLiteral text ++ ')' :: rest) =
      some (encodeLiteral text, ')', rest) :=
  splitAtClose_of_run? (Emittable.encodeLiteral text).contained rfl rest

theorem splitTagEnd_encodeLiteral {kind : Char} (ofPage : kind = '\x7b' ∨ kind = '%') :
    Segment.splitTagEnd kind .outside (encodeLiteral text ++ rest) =
      (Segment.splitTagEnd kind .outside rest).map
        fun (tag, after) => (encodeLiteral text ++ tag, after) := by
  obtain ⟨within, ends⟩ := within_escapeLiteral text
  have noComment : kind ≠ '#' := by
    rintro rfl
    simp at ofPage
  have noMark : ('\'' == Segment.closingMark kind) = false := by
    rcases ofPage with rfl | rfl <;> rfl
  have passed := within.splitTagEnd noComment rest
  rw [ends] at passed
  have opened : Segment.splitTagEnd kind .outside ('\'' :: (escapeLiteral text ++ ['\''] ++ rest)) =
      (Segment.splitTagEnd kind (.inside '\'' false) (escapeLiteral text ++ ['\''] ++ rest)).map
        fun (tag, after) => ('\'' :: tag, after) := by
    cases escapeLiteral text ++ ['\''] ++ rest with
    | nil => rfl
    | cons d more => simp [Segment.splitTagEnd, noMark, noComment, Quotation.next, isQuote]
  rw [encodeLiteral, List.cons_append, opened, passed, Option.map_map]
  rfl

theorem splitTopLevel_encodeLiteral (separator : Char) :
    splitTopLevel separator (encodeLiteral text) = [encodeLiteral text] := by
  have pieces : splitPieces separator {} (encodeLiteral text) = [encodeLiteral text] := by
    have noCut : (atTop {} && '\'' == separator &&
        !(isQuote '\'' || isOpening '\'' || isClosing '\'')) = false := by
      simp [isQuote]
    have inside : next {} '\'' = ⟨.inside '\'' false, 0⟩ := rfl
    rw [encodeLiteral, splitPieces, noCut, inside, (within_escapeLiteral text).1.splitPieces]
    rfl
  rw [splitTopLevel, pieces, List.map_singleton, (visible_encodeLiteral text).trim_eq]
  rfl

theorem splitAs_encodeLiteral : Iteration.splitAs {} none (encodeLiteral text) = none := by
  have inside : next {} '\'' = ⟨.inside '\'' false, 0⟩ := rfl
  rw [encodeLiteral, Iteration.splitAs_cons, inside, (within_escapeLiteral text).1.splitAs]
  rfl

theorem pageExpression_literal_append :
    pageExpression (encodeLiteral text ++ rest) = encodeLiteral text ++ pageExpression rest := by
  obtain ⟨within, ends⟩ := within_escapeLiteral text
  have passed := within.dropSigils rest
  rw [ends] at passed
  have opened : pageExpression ('\'' :: (escapeLiteral text ++ ['\''] ++ rest)) =
      '\'' :: dropSigils (.inside '\'' false) (escapeLiteral text ++ ['\''] ++ rest) := rfl
  rw [encodeLiteral, List.cons_append, opened, passed]
  rfl

theorem pageExpression_encodeLiteral :
    pageExpression (encodeLiteral text) = encodeLiteral text := by
  have passed := pageExpression_literal_append text []
  rwa [List.append_nil, show pageExpression [] = [] from rfl, List.append_nil] at passed

theorem escapeLiteral_append (first second : List Char) :
    escapeLiteral (first ++ second) = escapeLiteral first ++ escapeLiteral second := by
  induction first with
  | nil => rfl
  | cons c first ih =>
      rw [List.cons_append, escapeLiteral, escapeLiteral, ih]
      split <;> rfl

theorem escapeLiteral_of_foreign {text : List Char} (foreign : ∀ c ∈ text, Foreign c) :
    escapeLiteral text = text := by
  induction text with
  | nil => rfl
  | cons c text ih =>
      obtain ⟨here, later⟩ := List.forall_mem_cons.mp foreign
      simp [escapeLiteral, here.ne, ih later]

theorem octets_escapeLiteral : octets (escapeLiteral text) = escapeLiteral (octets text) := by
  induction text with
  | nil => rfl
  | cons c text ih =>
      have backslash : octets ['\\'] = ['\\'] := octets_of_ascii (by decide)
      rw [octets_cons, escapeLiteral_append, ← ih, escapeLiteral]
      by_cases foreign : Foreign c
      · rw [escapeLiteral_of_foreign (octets_of_foreign foreign).2, if_neg (by simp [foreign.ne]),
          octets_cons]
      · rw [octets_of_ascii (Nat.not_lt.mp foreign), escapeLiteral]
        split
        · rw [octets_cons, octets_cons c, octets_of_ascii (Nat.not_lt.mp foreign), backslash]
          rfl
        · rw [octets_cons, octets_of_ascii (Nat.not_lt.mp foreign)]
          rfl

theorem octets_encodeLiteral : octets (encodeLiteral text) = encodeLiteral (octets text) := by
  have mark : octets ['\''] = ['\''] := octets_of_ascii (by decide)
  have append : ∀ first second, octets (first ++ second) = octets first ++ octets second := by
    simp [octets]
  rw [encodeLiteral, octets_cons, append, mark, octets_escapeLiteral]
  rfl

end Literal

/-! ### Names of partials -/

theorem PartialCall.name_ne_nil {args : List Char} {child : PartialCall}
    (parsed : PartialCall.parse args = .ok child) : child.name ≠ [] := by
  obtain ⟨quoted, inner, pieces, unquoted, named, -⟩ := PartialCall.parse_ok parsed
  intro empty
  rw [named] at empty
  unfold PartialCall.parse at parsed
  rw [pieces] at parsed
  cases data : child.data with
  | none => simp [data, unquoted, empty] at parsed
  | some data' =>
      simp only [data, Option.toList_some, unquoted, empty] at parsed
      split at parsed <;> cases parsed

/-- A quoted text is one literal to whatever reads it, and read back it is the text. This holds of
its octets too, and of the names in the code of partials. -/
theorem literal_opaque (text rest : List Char) :
    decodeLiteral (encodeLiteral text ++ rest) = some (text, rest) ∧
    splitAtClose { depth := 1 } (encodeLiteral text ++ ')' :: rest) =
      some (encodeLiteral text, ')', rest) ∧
    (∀ kind ∈ ['\x7b', '%'], Segment.splitTagEnd kind .outside (encodeLiteral text ++ rest) =
      (Segment.splitTagEnd kind .outside rest).map
        fun (tag, after) => (encodeLiteral text ++ tag, after)) ∧
    splitTopLevel ',' (encodeLiteral text) = [encodeLiteral text] ∧
    Iteration.splitAs {} none (encodeLiteral text) = none ∧
    pageExpression (encodeLiteral text) = encodeLiteral text ∧
    octets (encodeLiteral text) = encodeLiteral (octets text) ∧
    ∀ directive, Registry.builtin.find? "partial" = some directive → ∀ args code,
      directive.expand args = .ok code → ∃ literal data name,
        code = "\x7b\x7b __render_child(".toList ++ literal ∧
        decodeLiteral literal =
          some ("partials.".toList ++ name, ", ".toList ++ data ++ ") \x7d\x7d".toList) ∧
        name ≠ [] ∧ ∀ c ∈ name, c ≠ '/' ∧ c ≠ '\\' := by
  refine ⟨decodeLiteral_encodeLiteral text rest, splitAtClose_encodeLiteral text rest,
    fun kind ofPage => ?_, splitTopLevel_encodeLiteral text ',', splitAs_encodeLiteral text,
    pageExpression_encodeLiteral text, octets_encodeLiteral text, ?_⟩
  · exact splitTagEnd_encodeLiteral text rest (by simpa using ofPage)
  · intro directive found args code expanded
    obtain rfl : Builtin.inlineDirective "partial" Builtin.childPartial = directive :=
      Option.some.inj found
    obtain ⟨tags, made, rfl⟩ := Builtin.directive_ok expanded
    obtain ⟨child, parsed, rfl⟩ := Builtin.childPartial_ok made
    obtain ⟨quoted, inner, -, -, named, -⟩ := PartialCall.parse_ok parsed
    let data := (child.data.map pageExpression).getD Builtin.noFields
    refine ⟨_, data, child.name, ?_, decodeLiteral_encodeLiteral _ _,
      PartialCall.name_ne_nil parsed, fun c hmem => ?_⟩
    · simp [printTags, Tag.print, PageFunction.call, PageFunction.name,
        Builtin.commaSeparated, data]
    · rw [named] at hmem
      have noSeparator := not_isSeparator_of_mem_dotted hmem
      simpa [isSeparator] using noSeparator

end ThemeTemplates
