import ThemeTemplates.Proofs.Directive.Shape
import ThemeTemplates.Source.Expansion

/-!
# Directives emit what their roles say

The role of a built-in directive says which blocks it opens and closes, and that is what the tags it
emits do. The nesting of directives checked in a source is thus the nesting of the page's blocks.
-/

namespace ThemeTemplates

open Parse

def openTags (blocks : List OpenBlock) : List OpenTag :=
  blocks.map fun block => .ofGroup block.group

/-- The open blocks that a role leads from and to. -/
inductive Role.Leads : Role → List OpenTag → List OpenTag → Prop
  | inline (opened : List OpenTag) : Leads .inline opened opened
  | opens (group : String) (opened : List OpenTag) :
    Leads (.opens group) opened (.ofGroup group :: opened)
  | continues (group : String) (opened : List OpenTag) :
    Leads (.continues group) (.ofGroup group :: opened) (.ofGroup group :: opened)
  | closes (group : String) (opened : List OpenTag) :
    Leads (.closes group) (.ofGroup group :: opened) opened

theorem Role.leads_of_step {blocks blocks' : List OpenBlock} {directive : String} {role : Role}
    {line : Nat} (h : OpenBlock.step blocks directive role line = .ok blocks') :
    role.Leads (openTags blocks) (openTags blocks') := by
  cases role with
  | inline =>
      cases h
      exact .inline _
  | opens group =>
      cases h
      exact .opens group _
  | continues group =>
      cases blocks with
      | nil => cases h
      | cons block outer =>
          by_cases same : block.group = group
          · simp only [OpenBlock.step, same, beq_self_eq_true, if_true] at h
            cases h
            subst same
            exact .continues _ _
          · simp [OpenBlock.step, same] at h
  | closes group =>
      cases blocks with
      | nil => cases h
      | cons block outer =>
          by_cases same : block.group = group
          · simp only [OpenBlock.step, same, beq_self_eq_true, if_true] at h
            cases h
            subst same
            exact .closes _ _
          · simp [OpenBlock.step, same] at h

/-- An argument text without the names that emitted code keeps to itself. Sigils do not count as
part of a name. -/
structure Argument (args : List Char) : Prop where
  contained : Contained args
  shows : showsNames .outside false (pageExpression args) = true

theorem pageExpression_variable {text : List Char} (h : isVariable text = true) :
    pageExpression text = text.dropWhile (· == '$') := by
  unfold isVariable at h
  split at h
  · next c rest =>
      simp only [Bool.and_eq_true, List.all_eq_true] at h
      have letters : ∀ d ∈ c :: rest, d ≠ '$' := by
        intro d hd same
        subst same
        rcases List.mem_cons.mp hd with hd | hd
        · rw [← hd] at h
          cases h.1
        · cases h.2 _ hd
      have noSigil := letters c List.mem_cons_self
      unfold pageExpression
      rw [dropSigils, if_pos (by simp [h.1]), dropSigils_plain letters]
      simp [noSigil]
  · cases h

theorem Argument.visible_boundName {args : List Char} (argument : Argument args)
    {iteration : Iteration} (bound : isVariable iteration.binding = true)
    (binding : iteration.binding = Iteration.defaultBinding ∨ Part iteration.binding args) :
    ¬ Token.IsHidden (String.ofList iteration.boundName) := by
  have shows : showsNames .outside false (pageExpression iteration.binding) = true := by
    rcases binding with same | part
    · rw [same]
      decide +kernel
    · exact part.showsNames_pageExpression argument.shows
  rw [pageExpression_variable bound] at shows
  intro hidden
  unfold Token.IsHidden at hidden
  rw [String.toList_ofList] at hidden
  obtain ⟨rest, same⟩ := hidden
  rw [show iteration.binding.dropWhile (· == '$') = iteration.boundName from rfl, ← same] at shows
  cases shows

theorem Emittable.commaSeparated {first second : List Char} (hfirst : Emittable first)
    (hsecond : Emittable second) : Emittable (Builtin.commaSeparated first second) := by
  have behindComma : Emittable (',' :: ' ' :: second) := by
    refine ⟨hsecond.contained, ?_⟩
    rw [tokensOf_comma]
    intro s hs
    exact hsecond.shows s (by simpa using hs)
  have whole : Builtin.commaSeparated first second = first ++ ',' :: ' ' :: second := by
    simp [Builtin.commaSeparated]
  rw [whole]
  exact hfirst.append behindComma (delimits_comma _)

theorem emittable_postTypeName :
    Emittable ("'partials.post-type.' ~ ".toList ++ PageFunction.call .postType []) := by
  have prefixed : Emittable "'partials.post-type.' ~".toList := .of_showsNames rfl rfl
  have called : Emittable (' ' :: PageFunction.call .postType []) :=
    .behindBlank (.call (by decide) (.of_showsNames rfl rfl))
  have text : "'partials.post-type.' ~ ".toList ++ PageFunction.call .postType [] =
      "'partials.post-type.' ~".toList ++ ' ' :: PageFunction.call .postType [] := by
    decide +kernel
  rw [text]
  exact prefixed.append called (delimits_blank _)

theorem emittable_currentRecord :
    Emittable ("\x7b'post': ".toList ++ PageFunction.call .currentItem [] ++ ['\x7d']) := by
  have split : "\x7b'post': ".toList ++ PageFunction.call .currentItem [] ++ ['\x7d'] =
      '\x7b' :: ("'post'".toList ++
        ':' :: ' ' :: (PageFunction.call .currentItem [] ++ ['\x7d'])) := by
    decide +kernel
  have key : Token.tokensOf ("'post'".toList ++ ':' :: ' ' ::
      (PageFunction.call .currentItem [] ++ ['\x7d'])) = .literal "post" ::
        Token.tokensOf (':' :: ' ' :: (PageFunction.call .currentItem [] ++ ['\x7d'])) :=
    Token.tokensOf_chunk (@Token.Chunk.literal '\'' "post".toList "post".toList _ rfl rfl rfl)
  refine ⟨by unfold Contained; decide +kernel, ?_⟩
  rw [split, Token.tokensOf_sign rfl (by decide), key, Token.tokensOf_sign rfl (by decide),
    Token.tokensOf_blank rfl, Token.tokensOf_call, List.nil_append, Emittable.close_tokens,
    Token.tokensOf_sign rfl (by decide), Token.tokensOf_nil]
  intro s hs
  have same : s = PageFunction.currentItem.name := by simpa using hs
  rw [same]
  exact not_ofLoops (by decide)

theorem Passed.emittable {args passed : List Char} (argument : Argument args)
    (h : Passed args passed) : Emittable passed := by
  induction h with
  | nothing | noFields => exact .of_showsNames rfl rfl
  | part inside => exact .pageExpression inside argument.shows
  | literal text => exact .encodeLiteral text
  | pair _ _ ihfirst ihsecond => exact .commaSeparated ihfirst ihsecond
  | answer other _ ih => exact .call other ih
  | postTypeName => exact emittable_postTypeName
  | currentRecord => exact emittable_currentRecord

theorem Emission.emits {args : List Char} {role : Role} {tags : List Tag}
    {before after : List OpenTag} (argument : Argument args) (h : Emission args role tags)
    (leads : role.Leads before after) :
    Emits before after (printTags tags) := by
  cases h with
  | echo other passed =>
      cases leads
      exact emits_call other (passed.emittable argument)
  | condition block negated other passed =>
      cases leads
      rw [block]
      obtain ⟨emittable, passes⟩ := emittable_condition other (passed.emittable argument) negated
      exact emits_if before emittable passes
  | alternative block negated other passed =>
      cases leads
      rw [block]
      obtain ⟨emittable, passes⟩ := emittable_condition other (passed.emittable argument) negated
      exact emits_elif _ emittable passes
  | endCondition block =>
      cases leads
      rw [block]
      exact emits_endIf _
  | openLoop block bound binding source =>
      cases leads
      rw [block]
      exact emits_openLoop before _ bound (argument.visible_boundName bound binding)
        (source.emittable argument)
  | closeLoop block =>
      cases leads
      rw [block]
      exact emits_endLoop _ _

end ThemeTemplates
