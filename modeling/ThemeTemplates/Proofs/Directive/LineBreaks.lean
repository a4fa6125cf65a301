import ThemeTemplates.Proofs.Directive.Shape

/-!
# Directives add no line breaks

What a directive cuts out of its arguments is left of them by dropping characters, and the code
around it stands on one line. So no built-in directive emits more line breaks than its arguments
hold.
-/

namespace ThemeTemplates

theorem lineBreaks_le {first second : List Char} (h : first.Sublist second) :
    lineBreaks first ≤ lineBreaks second :=
  h.count_le '\n'

/-! ### What is left of arguments -/

theorem stripEnds_sublist (p : Char → Bool) (text : List Char) :
    (stripEnds p text).Sublist text := by
  have outer := (List.dropWhile_suffix p (l := (text.dropWhile p).reverse)).sublist.reverse
  rw [List.reverse_reverse] at outer
  exact outer.trans (List.dropWhile_suffix p).sublist

theorem unwrapOnce_sublist {text inner : List Char} (h : unwrapOnce text = some inner) :
    inner.Sublist text := by
  obtain ⟨close, rfl, -⟩ := unwrapOnce_eq_some_iff.mp h
  exact (List.sublist_append_left _ _).cons _

theorem unwrap_sublist (text : List Char) : (unwrap text).Sublist text := by
  induction text using unwrap.induct with
  | case1 text inner found ih =>
      rw [unwrap_of_some found]
      exact ih.trans ((unwrapOnce_sublist found).trans (stripEnds_sublist isBlank text))
  | case2 text missing =>
      rw [unwrap_of_none missing]
      exact stripEnds_sublist isBlank text

theorem dropSigils_sublist (q : Quotation) (text : List Char) :
    (dropSigils q text).Sublist text := by
  induction text generalizing q with
  | nil => exact .slnil
  | cons c rest ih =>
      rw [dropSigils]
      split
      · exact (ih q).cons c
      · exact (ih _).cons_cons c

theorem unquote_sublist {text inner : List Char} (h : unquote text = some inner) :
    inner.Sublist text := by
  refine List.Sublist.trans ?_ (stripEnds_sublist isBlank text)
  change inner.Sublist (trim text)
  unfold unquote at h
  split at h
  · next mark rest trimmed =>
      rw [trimmed]
      split at h
      · next last reversed ends =>
          split at h
          · cases h
            have dropped : reversed.Sublist rest.reverse := by
              rw [ends]
              exact List.sublist_cons_self last reversed
            exact (List.reverse_sublist.mp (by simpa using dropped)).cons mark
          · cases h
      · cases h
  · cases h

/-- The pieces between separators are what is left of a text without its separators. -/
theorem splitPieces_flatten_sublist (separator : Char) (n : Nesting) (text : List Char) :
    (splitPieces separator n text).flatten.Sublist text := by
  induction text generalizing n with
  | nil => exact .slnil
  | cons c rest ih =>
      rw [splitPieces]
      split
      · exact (ih n).cons c
      · have later := ih (n.next c)
        split
        · exact ((List.nil_sublist rest).cons_cons c)
        · next piece pieces found =>
            rw [found] at later
            exact later.cons_cons c

theorem flatten_map_trim_sublist (pieces : List (List Char)) :
    (pieces.map trim).flatten.Sublist pieces.flatten := by
  induction pieces with
  | nil => exact .slnil
  | cons piece pieces ih => exact (stripEnds_sublist isBlank piece).append ih

theorem splitTopLevel_flatten_sublist (separator : Char) (text : List Char) :
    (splitTopLevel separator text).flatten.Sublist text := by
  have parts := (flatten_map_trim_sublist (splitPieces separator {} text)).trans
    (splitPieces_flatten_sublist separator {} text)
  unfold splitTopLevel
  split
  · exact List.nil_sublist text
  · exact parts

/-! ### What is put around them -/

theorem lineBreaks_dotted (slug : List Char) : lineBreaks (dotted slug) = lineBreaks slug := by
  induction slug with
  | nil => rfl
  | cons c rest ih =>
      simp only [lineBreaks, dotted, List.map_cons, List.count_cons] at ih ⊢
      rw [ih]
      by_cases separator : isSeparator c = true
      · have other : c ≠ '\n' := by
          rintro rfl
          cases separator
        simp [separator, other]
      · simp [separator]

theorem lineBreaks_escapeLiteral (text : List Char) :
    lineBreaks (escapeLiteral text) = lineBreaks text := by
  induction text with
  | nil => rfl
  | cons c rest ih =>
      simp only [lineBreaks] at ih ⊢
      rw [escapeLiteral]
      split <;> simp [List.count_cons, ih]

theorem lineBreaks_encodeLiteral (text : List Char) :
    lineBreaks (encodeLiteral text) = lineBreaks text := by
  have inside := lineBreaks_escapeLiteral text
  simp only [lineBreaks] at inside ⊢
  simp [encodeLiteral, inside]

theorem lineBreaks_call (function : PageFunction) (args : List Char) :
    lineBreaks (function.call args) = lineBreaks args := by
  have name : lineBreaks function.name.toList = 0 :=
    lineBreaks_eq_zero fun hmem => by cases (Token.name_word function).2 _ hmem
  rw [PageFunction.call, lineBreaks_append, name]
  simp [lineBreaks]

theorem lineBreaks_commaSeparated (first second : List Char) :
    lineBreaks (Builtin.commaSeparated first second) = lineBreaks first + lineBreaks second := by
  have comma : lineBreaks ", ".toList = 0 := rfl
  rw [Builtin.commaSeparated, lineBreaks_append, lineBreaks_append, comma, Nat.add_zero]

theorem lineBreaks_pageExpression (text : List Char) :
    lineBreaks (pageExpression text) ≤ lineBreaks text :=
  lineBreaks_le (dropSigils_sublist .outside text)

theorem Tag.lineBreaks_echo (expression : List Char) :
    lineBreaks (Tag.print (.echo expression)) = lineBreaks expression := by
  simp [print, lineBreaks]

theorem Tag.lineBreaks_statement (content : List Char) :
    lineBreaks (Tag.print (.statement content)) = lineBreaks content := by
  simp [print, lineBreaks]

theorem lineBreaks_printTags_nil : lineBreaks (printTags []) = 0 := rfl

theorem lineBreaks_printTags_cons (tag : Tag) (tags : List Tag) :
    lineBreaks (printTags (tag :: tags)) = lineBreaks tag.print + lineBreaks (printTags tags) := by
  rw [printTags, List.flatMap_cons, lineBreaks_append]
  rfl

theorem lineBreaks_kindLiteral (kind : LoopKind) : lineBreaks (Builtin.kindLiteral kind) = 0 := by
  cases kind <;> rfl

theorem Iteration.lineBreaks_boundName {iteration : Iteration}
    (bound : isVariable iteration.binding = true) : lineBreaks iteration.boundName = 0 :=
  lineBreaks_eq_zero fun hmem => by cases (isWord_boundName bound).2 _ hmem

theorem lineBreaks_setLoopVariable (value : List Char) :
    lineBreaks (Builtin.setLoopVariable value).print = lineBreaks value := by
  have opening : lineBreaks ("set ".toList ++ Builtin.loopVariable ++ " = ".toList) = 0 := rfl
  rw [Builtin.setLoopVariable, Tag.lineBreaks_statement, lineBreaks_append, opening, Nat.zero_add]

theorem lineBreaks_openLoop (kind : LoopKind) {iteration : Iteration}
    (bound : isVariable iteration.binding = true) :
    lineBreaks (printTags (Builtin.openLoop kind iteration)) =
      lineBreaks (pageExpression iteration.source) := by
  have opening : lineBreaks "for ".toList = 0 := rfl
  have between : lineBreaks " in ".toList = 0 := rfl
  simp only [Builtin.openLoop, lineBreaks_printTags_cons, lineBreaks_printTags_nil,
    Tag.lineBreaks_statement, lineBreaks_setLoopVariable, lineBreaks_append, lineBreaks_call,
    lineBreaks_commaSeparated, lineBreaks_kindLiteral, Iteration.lineBreaks_boundName bound,
    opening,
    between, Nat.zero_add, Nat.add_zero]

/-! ### One directive at a time -/

/-- Whether a directive emits no more line breaks than the arguments it accepts hold. -/
def Directive.Sparing (entry : Directive) : Prop :=
  ∀ args code, entry.expand args = .ok code → lineBreaks code ≤ lineBreaks args

theorem Iteration.CutFrom.bound {text : List Char} {iteration : Iteration}
    (cut : Iteration.CutFrom text iteration) : isVariable iteration.binding = true := by
  obtain ⟨_, _, _, bound, _⟩ := cut
  exact bound

theorem Iteration.CutFrom.lineBreaks_source {text : List Char} {iteration : Iteration}
    (cut : Iteration.CutFrom text iteration) : lineBreaks iteration.source ≤ lineBreaks text := by
  obtain ⟨source, binding, found, -, sourced, -⟩ := cut
  have cutOff : source.Sublist text := by
    rw [(Part.splitAs_spec found).1]
    exact List.sublist_append_left _ _
  rw [sourced]
  exact lineBreaks_le ((stripEnds_sublist isBlank source).trans cutOff)

namespace Builtin

variable {name : String} {role : Role} {expandTags : List Char → Except CompileError (List Tag)}

theorem sparing_directive (h : ∀ args tags, expandTags args = .ok tags →
    lineBreaks (printTags tags) ≤ lineBreaks args) : (directive name role expandTags).Sparing := by
  intro args code expanded
  obtain ⟨tags, ran, rfl⟩ := directive_ok expanded
  exact h args tags ran

theorem sparing_withoutArguments {tags : List Tag} (called : String)
    (h : lineBreaks (printTags tags) = 0) :
    (directive name role (withoutArguments called tags)).Sparing := by
  refine sparing_directive fun args emitted ran => ?_
  rw [withoutArguments_ok ran, h]
  exact Nat.zero_le _

/-- An expression read off the arguments holds no more line breaks than they do. -/
theorem lineBreaks_expression_le (args : List Char) :
    lineBreaks (pageExpression (unwrap args)) ≤ lineBreaks args :=
  (lineBreaks_pageExpression _).trans (lineBreaks_le (unwrap_sublist args))

theorem sparing_loop : (iterationDirective "loop" loop).Sparing := by
  have sparing : (directive "loop" (.opens "loop") loop).Sparing := by
    refine sparing_directive fun args tags ran => ?_
    obtain ⟨iteration, parsed, rfl⟩ := loop_ok ran
    rcases Iteration.cut_of_parseLoop parsed with ⟨named, source⟩ | cut
    · rw [lineBreaks_openLoop .loop (named ▸ Iteration.isVariable_defaultBinding)]
      rcases source with ⟨-, query⟩ | whole
      · rw [query]
        exact (rfl : lineBreaks (pageExpression Iteration.currentQuery) = 0) ▸ Nat.zero_le _
      · rw [whole]
        exact lineBreaks_expression_le args
    · rw [lineBreaks_openLoop .loop cut.bound]
      exact (lineBreaks_pageExpression _).trans
        (cut.lineBreaks_source.trans (lineBreaks_le (unwrap_sublist args)))
  exact sparing

theorem sparing_simpleMenu : (iterationDirective "simplemenu" simpleMenu).Sparing := by
  have sparing : (directive "simplemenu" (.opens "simplemenu") simpleMenu).Sparing := by
    refine sparing_directive fun args tags ran => ?_
    obtain ⟨iteration, parsed, rfl⟩ := simpleMenu_ok ran
    have cut := Iteration.cut_of_parse parsed
    have source := cut.lineBreaks_source.trans (lineBreaks_le (unwrap_sublist args))
    have opened := @lineBreaks_openLoop .simpleMenu
      { iteration with source := PageFunction.call .navMenu iteration.source } cut.bound
    rw [opened]
    refine (lineBreaks_pageExpression _).trans ?_
    rwa [lineBreaks_call]
  exact sparing

theorem sparing_closeLoop (called group : String) (kind : LoopKind) :
    (directive called (.closes group) (closeLoop called kind)).Sparing :=
  sparing_withoutArguments called (by cases kind <;> rfl)

theorem sparing_endIf {called : String} : (directive name role (endIf called)).Sparing :=
  sparing_withoutArguments called rfl

theorem lineBreaks_echoedCall (function : PageFunction) (passed : List Char) :
    lineBreaks (printTags [.echo (function.call passed)]) = lineBreaks passed := by
  rw [lineBreaks_printTags_cons, lineBreaks_printTags_nil, Tag.lineBreaks_echo, lineBreaks_call,
    Nat.add_zero]

theorem sparing_childPartial : (inlineDirective "partial" childPartial).Sparing := by
  refine sparing_directive fun args tags ran => ?_
  obtain ⟨child, parsed, rfl⟩ := childPartial_ok ran
  obtain ⟨quoted, inner, pieces, unquoted, named, -⟩ := PartialCall.parse_ok parsed
  have apart := lineBreaks_le (splitTopLevel_flatten_sublist ',' (unwrap args))
  have whole := lineBreaks_le (unwrap_sublist args)
  have name : lineBreaks child.name ≤ lineBreaks quoted := by
    rw [named, lineBreaks_dotted]
    exact lineBreaks_le ((stripEnds_sublist _ _).trans (unquote_sublist unquoted))
  have data : lineBreaks ((child.data.map pageExpression).getD noFields) ≤
      lineBreaks child.data.toList.flatten := by
    cases child.data with
    | none => exact Nat.le_refl _
    | some data => simpa using lineBreaks_pageExpression data
  have front : lineBreaks "partials.".toList = 0 := rfl
  rw [pieces, List.flatten_cons, lineBreaks_append] at apart
  rw [lineBreaks_echoedCall, lineBreaks_commaSeparated, lineBreaks_encodeLiteral, lineBreaks_append,
    front]
  omega

theorem sparing_paginate : (inlineDirective "paginate" paginate).Sparing := by
  refine sparing_directive fun args tags ran => ?_
  obtain ⟨config, -, rfl | ⟨-, rfl⟩, rfl⟩ := paginate_ok ran
  · exact Nat.zero_le _
  · rw [lineBreaks_echoedCall]
    exact lineBreaks_expression_le args

theorem sparing_setPostData : (inlineDirective "setpostdata" setPostData).Sparing := by
  refine sparing_directive fun args tags ran => ?_
  rw [(setPostData_ok ran).2, lineBreaks_echoedCall]
  exact lineBreaks_expression_le args

theorem sparing_passThrough (name : String) (oneLine : '\n' ∉ name.toList) :
    (inlineDirective name (passThrough name)).Sparing := by
  refine sparing_directive fun args tags ran => ?_
  have named : lineBreaks (encodeLiteral name.toList) = 0 := by
    rw [lineBreaks_encodeLiteral, lineBreaks_eq_zero oneLine]
  obtain ⟨passed, rfl | rfl, rfl⟩ := passThrough_ok ran
  · rw [lineBreaks_echoedCall, named]
    exact Nat.zero_le _
  · rw [lineBreaks_echoedCall, lineBreaks_commaSeparated, named, Nat.zero_add]
    exact lineBreaks_expression_le args

theorem sparing_permission {keyword called : String} {check : PageFunction} {negated : Bool}
    (oneLine : '\n' ∉ keyword.toList) :
    (directive name role (permission keyword called check negated)).Sparing := by
  refine sparing_directive fun args tags ran => ?_
  have negation : lineBreaks "not ".toList = 0 := rfl
  have unnegated : ∀ test, lineBreaks (negatable negated test) = lineBreaks test := by
    intro test
    cases negated
    · rfl
    · exact (lineBreaks_append _ _).trans (by rw [negation, Nat.zero_add])
  rw [permission_ok ran, lineBreaks_printTags_cons, lineBreaks_printTags_nil,
    Tag.lineBreaks_statement, lineBreaks_append, lineBreaks_eq_zero oneLine,
    ← List.singleton_append, lineBreaks_append, unnegated, lineBreaks_call]
  simpa [lineBreaks] using lineBreaks_expression_le args

theorem sparing_of_mem {entry : Directive} (h : entry ∈ directives) : entry.Sparing := by
  unfold directives at h
  rcases List.mem_append.mp h with h | h
  · refine (?_ : ∀ entry ∈ _, Directive.Sparing entry) entry h
    simp only [List.forall_mem_cons]
    exact ⟨sparing_loop, sparing_closeLoop _ _ _, sparing_simpleMenu, sparing_closeLoop _ _ _,
      sparing_childPartial, sparing_withoutArguments _ rfl, sparing_paginate,
      sparing_setPostData, sparing_withoutArguments _ rfl,
      sparing_permission (by decide), sparing_permission (by decide), sparing_endIf,
      sparing_permission (by decide), sparing_permission (by decide), sparing_endIf,
      sparing_permission (by decide), sparing_endIf,
      sparing_withoutArguments _ rfl, sparing_endIf,
      sparing_withoutArguments _ rfl, sparing_endIf, List.forall_mem_nil _⟩
  · obtain ⟨name, known, rfl⟩ := List.mem_map.mp h
    exact sparing_passThrough name
      ((by decide : ∀ name ∈ passThroughNames, '\n' ∉ name.toList) name known)

end Builtin

end ThemeTemplates
