import ThemeTemplates.Proofs.Page.Emission
import ThemeTemplates.Proofs.Text.Parts

/-!
# What built-in directives emit

A built-in directive emits one echo, one end of a conditional, one condition, or the two tags at
either end of a loop. What it passes to the functions it calls is put together from a few kinds of
expression, and those that come from its arguments are parts of them.
-/

namespace ThemeTemplates

open Parse

def OpenTag.ofGroup (group : String) : OpenTag :=
  if group = "loop" then .loop .loop
  else if group = "simplemenu" then .loop .simpleMenu
  else .condition

/-- What a directive with some arguments passes to the functions it calls. -/
inductive Passed (args : List Char) : List Char → Prop
  | nothing : Passed args []
  | noFields : Passed args Builtin.noFields
  | part {part : List Char} (h : Part part args) : Passed args (pageExpression part)
  | literal (text : List Char) : Passed args (encodeLiteral text)
  | pair {first second : List Char} (hfirst : Passed args first) (hsecond : Passed args second) :
    Passed args (Builtin.commaSeparated first second)
  | answer {function : PageFunction} {text : List Char}
    (other : function ∉ [PageFunction.loopPush, .loopNext, .loopPop]) (h : Passed args text) :
    Passed args (function.call text)
  /-- The name of the partial for a post type. -/
  | postTypeName :
    Passed args ("'partials.post-type.' ~ ".toList ++ PageFunction.call .postType [])
  /-- The record that the partial for a post type is given. -/
  | currentRecord :
    Passed args ("\x7b'post': ".toList ++ PageFunction.call .currentItem [] ++ ['\x7d'])

/-- The tags that a directive of some role emits for its arguments. -/
inductive Emission (args : List Char) : Role → List Tag → Prop
  | echo {function : PageFunction} {passed : List Char}
    (other : function ∉ [PageFunction.loopPush, .loopNext, .loopPop]) (h : Passed args passed) :
    Emission args .inline [.echo (function.call passed)]
  | condition {group : String} {function : PageFunction} {passed : List Char}
    (block : OpenTag.ofGroup group = .condition) (negated : Bool)
    (other : function ∉ [PageFunction.loopPush, .loopNext, .loopPop]) (h : Passed args passed) :
    Emission args (.opens group)
      [.statement ("if".toList ++ ' ' :: negatable negated (function.call passed))]
  | alternative {group : String} {function : PageFunction} {passed : List Char}
    (block : OpenTag.ofGroup group = .condition) (negated : Bool)
    (other : function ∉ [PageFunction.loopPush, .loopNext, .loopPop]) (h : Passed args passed) :
    Emission args (.continues group)
      [.statement ("elif".toList ++ ' ' :: negatable negated (function.call passed))]
  | endCondition {group : String} (block : OpenTag.ofGroup group = .condition) :
    Emission args (.closes group) [.statement "endif".toList]
  | openLoop {group : String} {kind : LoopKind} {iteration : Iteration}
    (block : OpenTag.ofGroup group = .loop kind) (bound : isVariable iteration.binding = true)
    (binding : iteration.binding = Iteration.defaultBinding ∨ Part iteration.binding args)
    (source : Passed args (pageExpression iteration.source)) :
    Emission args (.opens group) (Builtin.openLoop kind iteration)
  | closeLoop {group : String} {kind : LoopKind} (block : OpenTag.ofGroup group = .loop kind) :
    Emission args (.closes group) [.statement "endfor".toList,
      Builtin.setLoopVariable (PageFunction.call .loopPop (Builtin.kindLiteral kind))]

/-! ### Sigils in front of calls -/

theorem dropSigils_plain {text : List Char} (h : ∀ c ∈ text, c ≠ '$') (q : Quotation) :
    dropSigils q text = text := by
  induction text generalizing q with
  | nil => rfl
  | cons c text ih =>
      have rest := ih (fun d hd => h d (List.mem_cons_of_mem _ hd)) (q.next c)
      simp [dropSigils, h c List.mem_cons_self, rest]

theorem pageExpression_call (function : PageFunction) (args : List Char) :
    pageExpression (function.call args) = function.call (pageExpression args) := by
  have opening : ∀ c ∈ function.name.toList ++ ['('], c ≠ '$' := by
    rintro c hmem rfl
    rcases List.mem_append.mp hmem with hmem | hmem
    · exact absurd ((Token.name_word function).2 _ hmem) (by decide)
    · simp at hmem
  have outside : Quotation.after .outside (function.name.toList ++ ['(']) = .outside := by
    rw [Quotation.after, List.foldl_append]
    exact congrArg (fun q => Quotation.after q ['(']) (Emittable.contained_name function).closed
  have split : ∀ args, function.call args = (function.name.toList ++ ['(']) ++ (args ++ [')']) := by
    simp [PageFunction.call]
  have closing : dropSigils .outside (args ++ [')']) = dropSigils .outside args ++ [')'] := by
    rw [dropSigils_append fun _ => rfl]
    simp [dropSigils]
  unfold pageExpression
  rw [split args, split (dropSigils _ _), dropSigils_append (by simp), dropSigils_plain opening,
    outside, closing]

/-! ### What the arguments are cut into -/

namespace Iteration

variable {args : List Char} {directive : String} {iteration : Iteration}

theorem ofParts_ok {raw source binding : List Char}
    (h : ofParts directive raw source binding = .ok iteration) :
    isVariable iteration.binding = true ∧ iteration.source = trim source ∧
      iteration.binding = trim binding := by
  unfold ofParts at h
  extract_lets source' binding' refuse at h
  by_cases empty : source'.isEmpty
  · rw [if_pos empty] at h
    cases h
  · rw [if_neg empty] at h
    by_cases bound : isVariable binding' = true
    · rw [if_neg (by simp [bound])] at h
      cases h
      exact ⟨bound, rfl, rfl⟩
    · rw [if_pos (by simp [bound])] at h
      cases h

/-- What an iteration is cut out of: the two sides of the word between them, trimmed. -/
def CutFrom (text : List Char) (iteration : Iteration) : Prop :=
  ∃ source binding, splitAs {} none text = some (source, binding) ∧
    isVariable iteration.binding = true ∧ iteration.source = trim source ∧
      iteration.binding = trim binding

theorem cut_of_parse (parsed : parse directive args = .ok iteration) :
    CutFrom (unwrap args) iteration := by
  unfold parse at parsed
  cases cut : splitAs {} none (unwrap args) with
  | none =>
      rw [cut] at parsed
      cases parsed
  | some parts =>
      rw [cut] at parsed
      exact ⟨parts.1, parts.2, cut, ofParts_ok parsed⟩

theorem cut_of_parseLoop (parsed : parseLoop args = .ok iteration) :
    iteration.binding = defaultBinding ∧
        (unwrap args = [] ∧ iteration.source = currentQuery ∨ iteration.source = unwrap args) ∨
      CutFrom (unwrap args) iteration := by
  unfold parseLoop at parsed
  extract_lets text at parsed
  by_cases empty : text.isEmpty
  · rw [if_pos empty] at parsed
    cases parsed
    exact .inl ⟨rfl, .inl ⟨List.isEmpty_iff.mp empty, rfl⟩⟩
  · rw [if_neg empty] at parsed
    cases cut : splitAs {} none text with
    | none =>
        rw [cut] at parsed
        cases parsed
        exact .inl ⟨rfl, .inr rfl⟩
    | some parts =>
        rw [cut] at parsed
        exact .inr ⟨parts.1, parts.2, cut, ofParts_ok parsed⟩

theorem CutFrom.parts (h : Contained args) (cut : CutFrom (unwrap args) iteration) :
    isVariable iteration.binding = true ∧ Part iteration.binding args ∧
      Part iteration.source args := by
  obtain ⟨source, binding, found, bound, sourced, named⟩ := cut
  have whole : Part (unwrap args) args := (Part.refl h).unwrap
  rw [sourced, named]
  exact ⟨named ▸ bound, whole.binding found (named ▸ bound), whole.source found⟩

theorem parse_ok (h : Contained args) (parsed : parse directive args = .ok iteration) :
    isVariable iteration.binding = true ∧ Part iteration.binding args ∧
      Part iteration.source args :=
  (cut_of_parse parsed).parts h

theorem isVariable_defaultBinding : isVariable defaultBinding = true := by
  decide +kernel

theorem parseLoop_ok (h : Contained args) (parsed : parseLoop args = .ok iteration) :
    isVariable iteration.binding = true ∧
      (iteration.binding = defaultBinding ∨ Part iteration.binding args) ∧
      (iteration.source = currentQuery ∨ Part iteration.source args) := by
  rcases cut_of_parseLoop parsed with ⟨named, source⟩ | cut
  · have whole : Part (unwrap args) args := (Part.refl h).unwrap
    refine ⟨named ▸ isVariable_defaultBinding, .inl named, source.imp And.right fun same => ?_⟩
    rw [same]
    exact whole
  · obtain ⟨bound, binding, source⟩ := cut.parts h
    exact ⟨bound, .inr binding, .inr source⟩

end Iteration

/-- The arguments of a child render are a quoted name and perhaps one more part. -/
theorem PartialCall.parse_ok {args : List Char} {child : PartialCall}
    (parsed : PartialCall.parse args = .ok child) : ∃ quoted inner,
      splitTopLevel ',' (unwrap args) = quoted :: child.data.toList ∧ unquote quoted = some inner ∧
        child.name = dotted (stripEnds isSeparator inner) ∧ child.data ≠ some [] := by
  unfold PartialCall.parse at parsed
  extract_lets refuse build at parsed
  have built : ∀ quoted data, build quoted data = .ok child → child.data = data ∧
      ∃ inner, unquote quoted = some inner ∧ child.name = dotted (stripEnds isSeparator inner) := by
    intro quoted data made
    simp only [build] at made
    cases unquoted : unquote quoted with
    | none =>
        rw [unquoted] at made
        cases made
    | some inner =>
        simp only [unquoted] at made
        split at made
        · cases made
        · cases made
          exact ⟨rfl, inner, rfl, rfl⟩
  cases pieces : splitTopLevel ',' (unwrap args) with
  | nil =>
      rw [pieces] at parsed
      cases parsed
  | cons quoted rest =>
      rw [pieces] at parsed
      cases rest with
      | nil =>
          obtain ⟨data, inner, unquoted, named⟩ := built _ _ parsed
          exact ⟨quoted, inner, by rw [data]; rfl, unquoted, named, by simp [data]⟩
      | cons second rest =>
          cases rest with
          | cons third rest => cases parsed
          | nil =>
              by_cases empty : second.isEmpty = true
              · simp only [empty, if_true] at parsed
                cases parsed
              · simp only [empty, Bool.false_eq_true, if_false] at parsed
                obtain ⟨data, inner, unquoted, named⟩ := built _ _ parsed
                refine ⟨quoted, inner, by rw [data]; rfl, unquoted, named, ?_⟩
                simpa [data] using empty

theorem PartialCall.data_mem {args : List Char} {child : PartialCall} {data : List Char}
    (parsed : PartialCall.parse args = .ok child) (given : child.data = some data) :
    data ∈ splitTopLevel ',' (unwrap args) := by
  obtain ⟨quoted, inner, pieces, -⟩ := PartialCall.parse_ok parsed
  rw [pieces, given]
  simp

/-! ### What the expanders answer -/

namespace Builtin

variable {name : String} {role : Role} {expandTags : List Char → Except CompileError (List Tag)}
variable {args : List Char} {tags : List Tag}

theorem directive_ok {code : List Char}
    (h : (directive name role expandTags).expand args = .ok code) :
    ∃ tags, expandTags args = .ok tags ∧ code = printTags tags := by
  cases ran : expandTags args with
  | error error => simp [directive, ran, Except.map] at h
  | ok tags =>
      simp only [directive, ran, Except.map, Except.ok.injEq] at h
      exact ⟨tags, rfl, h.symm⟩

theorem withoutArguments_ok {emitted : List Tag}
    (h : withoutArguments name tags args = .ok emitted) :
    emitted = tags := by
  unfold withoutArguments at h
  split at h
  · exact (Except.ok.inj h).symm
  · cases h

theorem loop_ok (h : loop args = .ok tags) :
    ∃ iteration, Iteration.parseLoop args = .ok iteration ∧ tags = openLoop .loop iteration := by
  cases parsed : Iteration.parseLoop args with
  | error error => simp [loop, parsed, bind, Except.bind] at h
  | ok iteration =>
      simp only [loop, parsed, bind, Except.bind, pure, Except.pure, Except.ok.injEq] at h
      exact ⟨iteration, rfl, h.symm⟩

theorem simpleMenu_ok (h : simpleMenu args = .ok tags) :
    ∃ iteration, Iteration.parse "simplemenu" args = .ok iteration ∧
      tags = openLoop .simpleMenu
        { iteration with source := PageFunction.call .navMenu iteration.source } := by
  cases parsed : Iteration.parse "simplemenu" args with
  | error error => simp [simpleMenu, parsed, bind, Except.bind] at h
  | ok iteration =>
      simp only [simpleMenu, parsed, bind, Except.bind, pure, Except.pure, Except.ok.injEq] at h
      exact ⟨iteration, rfl, h.symm⟩

theorem childPartial_ok (h : childPartial args = .ok tags) :
    ∃ child, PartialCall.parse args = .ok child ∧
      tags = [.echo (PageFunction.call .renderChild
        (commaSeparated (encodeLiteral ("partials.".toList ++ child.name))
          ((child.data.map pageExpression).getD noFields)))] := by
  cases parsed : PartialCall.parse args with
  | error error => simp [childPartial, parsed, bind, Except.bind] at h
  | ok child =>
      simp only [childPartial, parsed, bind, Except.bind, pure, Except.pure, Except.ok.injEq] at h
      exact ⟨child, rfl, h.symm⟩

theorem paginate_ok (h : paginate args = .ok tags) :
    ∃ config, (splitTopLevel ',' (unwrap args)).length ≤ 1 ∧
      (config = noFields ∨ unwrap args ≠ [] ∧ config = pageExpression (unwrap args)) ∧
        tags = [.echo (PageFunction.call .paginate config)] := by
  unfold paginate at h
  extract_lets config passed at h
  by_cases many : (splitTopLevel ',' config).length > 1
  · rw [if_pos many] at h
    cases h
  · rw [if_neg many] at h
    cases h
    refine ⟨passed, Nat.not_lt.mp many, ?_, rfl⟩
    by_cases empty : config.isEmpty
    · exact .inl (if_pos empty)
    · exact .inr ⟨fun same => empty (List.isEmpty_iff.mpr same), if_neg empty⟩

theorem setPostData_ok (h : setPostData args = .ok tags) : unwrap args ≠ [] ∧
    tags = [.echo (PageFunction.call .setCurrentItem (pageExpression (unwrap args)))] := by
  unfold setPostData at h
  extract_lets item at h
  by_cases empty : item.isEmpty
  · rw [if_pos empty] at h
    cases h
  · rw [if_neg empty] at h
    exact ⟨fun same => empty (List.isEmpty_iff.mpr same), (Except.ok.inj h).symm⟩

theorem passThrough_ok (h : passThrough name args = .ok tags) :
    ∃ passed, (passed = encodeLiteral name.toList ∨
        passed = commaSeparated (encodeLiteral name.toList) (pageExpression (unwrap args))) ∧
      tags = [.echo (PageFunction.call .invoke passed)] := by
  unfold passThrough at h
  extract_lets inner literal at h
  cases h
  refine ⟨_, ?_, rfl⟩
  by_cases empty : inner.isEmpty
  · exact .inl (if_pos empty)
  · exact .inr (if_neg empty)

theorem permission_ok {keyword called : String} {check : PageFunction} {negated : Bool}
    (h : permission keyword called check negated args = .ok tags) :
    tags = [.statement (keyword.toList ++ ' ' ::
      negatable negated (check.call (pageExpression (unwrap args))))] := by
  unfold permission at h
  extract_lets abilities test tested at h
  by_cases empty : abilities.isEmpty
  · rw [if_pos empty] at h
    cases h
  · rw [if_neg empty] at h
    exact (Except.ok.inj h).symm

end Builtin

/-! ### One directive at a time -/

/-- Whether a directive emits what its role allows, whatever its arguments hold. -/
def Directive.Shaped (entry : Directive) : Prop :=
  ∀ args code, Contained args → entry.expand args = .ok code →
    ∃ tags, code = printTags tags ∧ Emission args entry.role tags

namespace Builtin

variable {name : String} {role : Role} {expandTags : List Char → Except CompileError (List Tag)}

theorem shaped_directive (h : ∀ args tags, Contained args → expandTags args = .ok tags →
    Emission args role tags) : (directive name role expandTags).Shaped := by
  intro args code contained expanded
  obtain ⟨tags, ran, rfl⟩ := directive_ok expanded
  exact ⟨tags, rfl, h args tags contained ran⟩

theorem shaped_withoutArguments {tags : List Tag} (called : String)
    (h : ∀ args, Emission args role tags) :
    (directive name role (withoutArguments called tags)).Shaped := by
  refine shaped_directive fun args emitted _ ran => ?_
  rw [withoutArguments_ok ran]
  exact h args

theorem shaped_loop : (iterationDirective "loop" loop).Shaped := by
  have shaped : (directive "loop" (.opens "loop") loop).Shaped := by
    refine shaped_directive fun args tags contained ran => ?_
    obtain ⟨iteration, parsed, rfl⟩ := loop_ok ran
    obtain ⟨bound, binding, source⟩ := Iteration.parseLoop_ok contained parsed
    refine .openLoop rfl bound binding ?_
    rcases source with query | inside
    · rw [query, Iteration.currentQuery, pageExpression_call]
      exact .answer (by decide) .nothing
    · exact .part inside
  exact shaped

theorem shaped_simpleMenu : (iterationDirective "simplemenu" simpleMenu).Shaped := by
  have shaped : (directive "simplemenu" (.opens "simplemenu") simpleMenu).Shaped := by
    refine shaped_directive fun args tags contained ran => ?_
    obtain ⟨iteration, parsed, rfl⟩ := simpleMenu_ok ran
    obtain ⟨bound, binding, inside⟩ := Iteration.parse_ok contained parsed
    refine .openLoop rfl bound (.inr binding) ?_
    rw [pageExpression_call]
    exact .answer (by decide) (.part inside)
  exact shaped

theorem shaped_closeLoop (called group : String) {kind : LoopKind}
    (block : OpenTag.ofGroup group = .loop kind) :
    (directive called (.closes group) (closeLoop called kind)).Shaped :=
  shaped_withoutArguments called fun _ => .closeLoop block

theorem shaped_childPartial : (inlineDirective "partial" childPartial).Shaped := by
  refine shaped_directive fun args tags contained ran => ?_
  obtain ⟨child, parsed, rfl⟩ := childPartial_ok ran
  refine .echo (by decide) (.pair (.literal _) ?_)
  cases given : child.data with
  | none => exact .noFields
  | some data =>
      have piece := PartialCall.data_mem parsed given
      exact .part ((Part.refl contained).unwrap.topLevelPiece piece)

theorem shaped_postTypePartial : (inlineDirective "posttypepartial" postTypePartial).Shaped :=
  shaped_withoutArguments _ fun _ => .echo (by decide) (.pair .postTypeName .currentRecord)

theorem shaped_paginate : (inlineDirective "paginate" paginate).Shaped := by
  refine shaped_directive fun args tags contained ran => ?_
  obtain ⟨config, -, rfl | ⟨-, rfl⟩, rfl⟩ := paginate_ok ran
  · exact .echo (by decide) .noFields
  · exact .echo (by decide) (.part (Part.refl contained).unwrap)

theorem shaped_setPostData : (inlineDirective "setpostdata" setPostData).Shaped := by
  refine shaped_directive fun args tags contained ran => ?_
  rw [(setPostData_ok ran).2]
  exact .echo (by decide) (.part (Part.refl contained).unwrap)

theorem shaped_resetPostData : (inlineDirective "resetpostdata" resetPostData).Shaped :=
  shaped_withoutArguments _ fun _ => .echo (by decide) .nothing

theorem shaped_passThrough (name : String) : (inlineDirective name (passThrough name)).Shaped := by
  refine shaped_directive fun args tags contained ran => ?_
  obtain ⟨passed, rfl | rfl, rfl⟩ := passThrough_ok ran
  · exact .echo (by decide) (.literal _)
  · exact .echo (by decide) (.pair (.literal _) (.part (Part.refl contained).unwrap))

theorem shaped_permission {keyword called : String} {check : PageFunction} {negated : Bool}
    (h : ∀ args passed, Passed args passed → Emission args role
      [.statement (keyword.toList ++ ' ' :: negatable negated (check.call passed))]) :
    (directive name role (permission keyword called check negated)).Shaped := by
  refine shaped_directive fun args tags contained ran => ?_
  rw [permission_ok ran]
  exact h args _ (.part (Part.refl contained).unwrap)

theorem shaped_condition {group : String} (block : OpenTag.ofGroup group = .condition)
    (called : String) {check : PageFunction} (negated : Bool)
    (other : check ∉ [PageFunction.loopPush, .loopNext, .loopPop]) :
    (directive called (.opens group) (condition called check negated)).Shaped :=
  shaped_permission fun _ _ passed => .condition block negated other passed

theorem shaped_alternative {group : String} (block : OpenTag.ofGroup group = .condition)
    (called : String) {check : PageFunction} (negated : Bool)
    (other : check ∉ [PageFunction.loopPush, .loopNext, .loopPop]) :
    (directive called (.continues group) (alternative called check negated)).Shaped :=
  shaped_permission fun _ _ passed => .alternative block negated other passed

theorem shaped_signedIn {group keyword : String} (negated : Bool)
    (block : OpenTag.ofGroup group = .condition) (called : String)
    (same : ∀ call : List Char, keyword.toList ++ ' ' :: call =
      "if".toList ++ ' ' :: negatable negated call) :
    (directive called (.opens group) (signedIn called keyword)).Shaped := by
  refine shaped_withoutArguments called fun args => ?_
  rw [same]
  exact .condition block negated (by decide) .nothing

theorem shaped_endIf {group : String} (block : OpenTag.ofGroup group = .condition)
    (called : String) : (directive called (.closes group) (endIf called)).Shaped :=
  shaped_withoutArguments called fun _ => .endCondition block

theorem shaped_of_mem_passThrough {entry : Directive}
    (h : entry ∈ passThroughNames.map fun name => inlineDirective name (passThrough name)) :
    entry.Shaped := by
  obtain ⟨name, -, rfl⟩ := List.mem_map.mp h
  exact shaped_passThrough name

theorem shaped_of_mem {entry : Directive} (h : entry ∈ directives) : entry.Shaped := by
  unfold directives at h
  rcases List.mem_append.mp h with h | h
  · refine (?_ : ∀ entry ∈ _, Directive.Shaped entry) entry h
    simp only [List.forall_mem_cons]
    exact ⟨shaped_loop, shaped_closeLoop _ _ rfl, shaped_simpleMenu, shaped_closeLoop _ _ rfl,
      shaped_childPartial, shaped_postTypePartial, shaped_paginate, shaped_setPostData,
      shaped_resetPostData,
      shaped_condition rfl _ _ (by decide), shaped_alternative rfl _ _ (by decide),
      shaped_endIf rfl _,
      shaped_condition rfl _ _ (by decide), shaped_alternative rfl _ _ (by decide),
      shaped_endIf rfl _,
      shaped_condition rfl _ _ (by decide), shaped_endIf rfl _,
      shaped_signedIn false rfl _ (fun _ => rfl), shaped_endIf rfl _,
      shaped_signedIn true rfl _ (fun _ => rfl), shaped_endIf rfl _, List.forall_mem_nil _⟩
  · exact shaped_of_mem_passThrough h

end Builtin

end ThemeTemplates
