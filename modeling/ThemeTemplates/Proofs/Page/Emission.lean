import ThemeTemplates.Directive.Builtin
import ThemeTemplates.Proofs.Page.Tags

/-!
# What the directives emit

The tags of a directive keep their tokens apart from those of the arguments cut into them, and they
open and close the blocks that the role of the directive says.
-/

namespace ThemeTemplates

/-- The names of the functions that keep the loop stack. -/
def OfLoops (name : String) : Prop :=
  ∃ function ∈ [PageFunction.loopPush, .loopNext, .loopPop], name = function.name

namespace Token

variable {rest : List Char}

/-! ### Tokens one at a time -/

theorem tokensOf_word {word : List Char} (start : word.head?.any isWordStart = true)
    (letters : ∀ c ∈ word, isWordChar c = true) (delimits : Delimits rest) :
    tokensOf (word ++ rest) = name (String.ofList word) :: tokensOf rest := by
  cases word with
  | nil => cases start
  | cons c word =>
      refine tokensOf_chunk (.name start (fun d hd => letters d (List.mem_cons_of_mem _ hd)) ?_)
      cases rest with
      | nil => rfl
      | cons d rest => simp [(delimits d rfl).1]

theorem tokensOf_sign {c : Char} (single : signs.contains c = true)
    (alone : c ∉ ['/', '*', '=', '!', '>', '<']) (rest : List Char) :
    tokensOf (c :: rest) = sign c.toString :: tokensOf rest :=
  tokensOf_chunk (.sign single (notPaired alone rest))

theorem tokensOf_equals (rest : List Char) :
    tokensOf ('=' :: ' ' :: rest) = sign "=" :: tokensOf rest := by
  have chunk : Chunk (sign '='.toString) ['='] (' ' :: rest) := .sign (by decide) rfl
  exact (tokensOf_chunk chunk).trans (congrArg _ (tokensOf_blank rfl rest))

theorem name_word (function : PageFunction) :
    function.name.toList.head?.any isWordStart = true ∧
      ∀ c ∈ function.name.toList, isWordChar c = true := by
  have all : (function.name.toList.head?.any isWordStart &&
      function.name.toList.all isWordChar) = true := by
    cases function <;> decide +kernel
  simpa using all

theorem tokensOf_call (function : PageFunction) (args rest : List Char) :
    tokensOf (function.call args ++ rest) =
      name function.name :: sign "(" :: tokensOf (args ++ ')' :: rest) := by
  obtain ⟨start, letters⟩ := name_word function
  have split : function.call args ++ rest = function.name.toList ++
      '(' :: (args ++ ')' :: rest) := by
    simp [PageFunction.call]
  rw [split, tokensOf_word start letters (Delimits.cons _ (by decide) (by decide)),
    tokensOf_sign (by decide) (by decide), String.ofList_toList]
  rfl

theorem kindLiteral_tokens (kind : LoopKind) (rest : List Char) :
    tokensOf (Builtin.kindLiteral kind ++ rest) = literal kind.name :: tokensOf rest := by
  have split : ∀ inside : List Char, Builtin.kindLiteral kind = '\'' :: inside ++ ['\''] →
      Literal.splitText '\'' (inside ++ '\'' :: rest) = some (inside, rest) →
      Literal.unescape inside.length inside = some kind.name.toList →
      tokensOf (Builtin.kindLiteral kind ++ rest) = literal kind.name :: tokensOf rest := by
    intro inside same found value
    rw [same, tokensOf_chunk (.literal rfl found value), String.ofList_toList]
  cases kind with
  | loop => exact split "loop".toList rfl rfl rfl
  | simpleMenu => exact split "simplemenu".toList rfl rfl rfl

end Token

theorem OfLoops.isHidden {name : String} (h : OfLoops name) : Token.IsHidden name := by
  obtain ⟨function, hmem, rfl⟩ := h
  simp only [List.mem_cons, List.not_mem_nil, or_false] at hmem
  rcases hmem with rfl | rfl | rfl <;> exact ⟨_, rfl⟩

theorem not_ofLoops {function : PageFunction}
    (other : function ∉ [PageFunction.loopPush, .loopNext, .loopPop]) :
      ¬ OfLoops function.name := by
  rintro ⟨loopFunction, hmem, same⟩
  have found := PageFunction.ofName?_name function
  rw [same, PageFunction.ofName?_name] at found
  cases found
  exact other hmem

theorem not_ofLoops_of_unknown {name : String} (unknown : PageFunction.ofName? name = none) :
    ¬ OfLoops name := by
  rintro ⟨function, -, rfl⟩
  rw [PageFunction.ofName?_name] at unknown
  cases unknown

/-! ### Texts that may stand in a tag -/

/-- A text that keeps its brackets to itself and names no function of the loops. -/
structure Emittable (text : List Char) : Prop where
  contained : Contained text
  shows : Token.Show OfLoops (Token.tokensOf text)

namespace Emittable

variable {first second : List Char}

theorem append (hfirst : Emittable first) (hsecond : Emittable second)
    (delimits : Delimits second) : Emittable (first ++ second) := by
  refine ⟨hfirst.contained.append hsecond.contained, ?_⟩
  rcases Token.tokensOf_append hfirst.contained.closed delimits with ⟨_, -, same⟩ | ⟨-, same⟩
  · rw [same]
    exact hfirst.shows
  · rw [same]
    intro s hs
    rcases List.mem_append.mp hs with hs | hs
    · exact hfirst.shows s hs
    · exact hsecond.shows s hs

theorem behindBlank {text : List Char} (h : Emittable text) : Emittable (' ' :: text) := by
  refine ⟨h.contained, ?_⟩
  rw [Token.tokensOf_blank rfl]
  exact h.shows

theorem of_showsNames {text : List Char} (contained : Contained text)
    (shows : showsNames .outside false text = true) : Emittable text :=
  ⟨contained, fun _ hmem loops => Token.not_isHidden_of_mem_tokensOf shows hmem loops.isHidden⟩

theorem pageExpression {part whole : List Char} (h : Part part whole)
    (shows : showsNames .outside false (ThemeTemplates.pageExpression whole) = true) :
    Emittable (ThemeTemplates.pageExpression part) :=
  of_showsNames h.contained.pageExpression (h.showsNames_pageExpression shows)

theorem contained_name (function : PageFunction) : Contained function.name.toList := by
  refine Token.run?_neutral (fun c hmem => Token.numeric_neutral ?_) 0
  simp [Literal.isNumeric, (Token.name_word function).2 c hmem]

theorem contained_call (function : PageFunction) {args : List Char} (h : Contained args) :
    Contained (function.call args) := by
  have brackets : Contained ('(' :: (args ++ [')'])) := by
    unfold Contained
    show Nesting.run? { depth := 1 } (args ++ [')']) = _
    rw [Nesting.run?_append, h.run?_at 1]
    rfl
  exact (contained_name function).append brackets

theorem close_tokens (rest : List Char) :
    Token.tokensOf (')' :: rest) = .sign ")" :: Token.tokensOf rest :=
  Token.tokensOf_sign (by decide) (by decide) rest

theorem delimits_close (rest : List Char) : Delimits (')' :: rest) :=
  Delimits.cons rest (by decide) (by decide)

theorem call {function : PageFunction} {args : List Char}
    (other : function ∉ [PageFunction.loopPush, .loopNext, .loopPop]) (h : Emittable args) :
    Emittable (function.call args) := by
  refine ⟨contained_call function h.contained, ?_⟩
  have tokens := Token.tokensOf_call function args []
  rw [List.append_nil] at tokens
  rw [tokens]
  have inside : Token.Show OfLoops (Token.tokensOf (args ++ [')'])) := by
    rcases Token.tokensOf_append h.contained.closed
      (delimits_close []) with ⟨_, -, same⟩ | ⟨-, same⟩
    · rw [same]
      exact h.shows
    · rw [same, close_tokens]
      intro s hs
      refine h.shows s ?_
      simpa [Token.tokensOf_nil] using hs
  intro s hs
  rcases List.mem_cons.mp hs with hs | hs
  · cases hs
    exact not_ofLoops other
  · refine inside s ?_
    simpa using hs

theorem run?_escapeLiteral (text : List Char) (depth : Nat) :
    Nesting.run? ⟨.inside '\'' false, depth⟩ (escapeLiteral text ++ ['\'']) = some { depth } := by
  induction text with
  | nil => rfl
  | cons c text ih =>
      unfold escapeLiteral
      split
      · exact ih
      · next plain =>
          simp only [Bool.or_eq_true, beq_iff_eq, not_or] at plain
          have step : Nesting.step? ⟨.inside '\'' false, depth⟩ c =
              some ⟨.inside '\'' false, depth⟩ := by
            simp [Nesting.step?, Quotation.next, plain]
          rw [List.cons_append]
          simp only [Nesting.run?, step, Option.bind_some]
          exact ih

theorem showsNames_escapeLiteral (text : List Char) :
    showsNames (.inside '\'' false) false (escapeLiteral text ++ ['\'']) = true := by
  induction text with
  | nil => rfl
  | cons c text ih =>
      unfold escapeLiteral
      split
      · exact ih
      · next plain =>
          simp only [Bool.or_eq_true, beq_iff_eq, not_or] at plain
          have step : Quotation.next (.inside '\'' false) c = .inside '\'' false := by
            simp [Quotation.next, plain]
          rw [List.cons_append]
          simp only [showsNames, step]
          exact ih

theorem encodeLiteral (text : List Char) : Emittable (encodeLiteral text) :=
  of_showsNames (run?_escapeLiteral text 0) (showsNames_escapeLiteral text)

end Emittable

/-! ### Tags that open and close blocks -/

open Piece Parse

/-- Code that leads from some open blocks to others, and that a brace in front of it spoils. -/
structure Emits (before after : List OpenTag) (code : List Char) : Prop where
  nests : ∀ rest, Nests OfLoops after rest → Nests OfLoops before (code ++ rest)
  behindBrace : ∀ rest, Nests OfLoops before ('\x7b' :: (code ++ rest))

theorem splitOpeningSign_cons {c : Char} (other : c ∉ ['-', '+']) (text : List Char) :
    splitOpeningSign (c :: text) = (false, c :: text) := by
  simp only [List.mem_cons, List.not_mem_nil, or_false, not_or] at other
  simp [splitOpeningSign, other]

theorem trimming_of_append {text : List Char} (more : List Char) (stop : text.getLast? ≠ some '-')
    (kept : (splitOpeningSign text).2 ≠ []) :
    ∃ more', (Trimming.of '\x7b' (text ++ more)).inside = (splitOpeningSign text).2 ++ more' := by
  have start : (splitOpeningSign (text ++ more)).2 = (splitOpeningSign text).2 ++ more ∧
      (splitOpeningSign text).2.getLast? ≠ some '-' := by
    cases text with
    | nil => exact absurd rfl kept
    | cons c text =>
        have tail : text ≠ [] → text.getLast? ≠ some '-' := by
          intro more
          cases text with
          | nil => exact absurd rfl more
          | cons d text => rwa [List.getLast?_cons_cons] at stop
        by_cases sign : c ∈ ['-', '+']
        · simp only [List.mem_cons, List.not_mem_nil, or_false] at sign
          rcases sign with rfl | rfl <;> exact ⟨rfl, tail kept⟩
        · rw [List.cons_append, splitOpeningSign_cons sign, splitOpeningSign_cons sign]
          exact ⟨rfl, stop⟩
  obtain ⟨opening, last⟩ := start
  unfold Trimming.of
  generalize splitOpeningSign (text ++ more) = signed at opening ⊢
  obtain ⟨before, inside⟩ := signed
  generalize (splitOpeningSign text).2 = start at opening last ⊢
  subst opening
  simp only
  cases more using List.reverseRecOn with
  | nil =>
      rw [List.append_nil]
      refine ⟨[], ?_⟩
      split
      · next reversed =>
          refine absurd ?_ last
          rw [← List.head?_reverse, reversed]
          rfl
      · simp
      · simp
  | append_singleton more d =>
      rw [← List.append_assoc, List.reverse_append]
      simp only [List.reverse_singleton, List.singleton_append]
      split
      · next same =>
          cases same
          exact ⟨more, by simp⟩
      · exact ⟨more ++ [d], by simp⟩
      · exact ⟨more ++ [d], by simp⟩

theorem not_expressible_of_flaw {tokens : List Token} {reason : PageFlaw}
    (h : Token.flaw reason ∈ tokens) : ¬ Expressible tokens :=
  fun expressible => noFlaw_of_brackets? expressible.brackets? reason h

/-- A text at the start of an echo in which no expression fits, whatever follows. -/
structure Spoils (text : List Char) : Prop where
  passes : Passes '\x7b' {} text
  stop : text.getLast? ≠ some '-'
  kept : (splitOpeningSign text).2 ≠ []
  refuses : ∀ more, ¬ Expressible (Token.tokensOf ((splitOpeningSign text).2 ++ more))

namespace Spoils

variable {text : List Char}

theorem cut (h : Spoils text) (rest : List Char) : splitTag '\x7b' {} (text ++ rest) = none ∨
    ∃ inside after, splitTag '\x7b' {} (text ++ rest) = some (inside, after) ∧
      ¬ Expressible (Token.tokensOf (Trimming.of '\x7b' inside).inside) := by
  have split := h.passes.splitTag_append rest
  cases ended : splitTag '\x7b' (Nesting.after {} text) rest with
  | none =>
      rw [ended] at split
      exact .inl split
  | some found =>
      obtain ⟨inside, after⟩ := found
      rw [ended] at split
      refine .inr ⟨text ++ inside, after, split, ?_⟩
      obtain ⟨more, trimmed⟩ := trimming_of_append inside h.stop h.kept
      rw [trimmed]
      exact h.refuses more

theorem nests (h : Spoils text) (opened : List OpenTag) (rest : List Char) :
    Nests OfLoops opened ('\x7b' :: '\x7b' :: (text ++ rest)) := by
  rcases h.cut rest with endless | ⟨inside, after, ended, noExpression⟩
  · exact Nests.unclosedEcho endless
  · exact Nests.echo ended (fun h => absurd h noExpression) fun h => absurd h noExpression

/-- A brace in front of a statement makes it an echo that begins with a percent sign. -/
theorem statement : Spoils ['%', ' '] where
  passes := Passes.of_noMark (by simp [Segment.closingMark])
  stop := by simp
  kept := by simp [splitOpeningSign]
  refuses := by
    intro more
    have tokens := Token.tokensOf_sign (c := '%') rfl (by decide) (' ' :: more)
    rw [splitOpeningSign_cons (by decide), show ['%', ' '] ++ more = '%' :: ' ' :: more from rfl,
      tokens]
    exact expressible_stuck (by decide)

/-- A brace in front of an echo of a call makes it an echo of a map whose first key is a call. -/
theorem call (function : PageFunction) {args : List Char} (contained : Contained args) :
    Spoils ('\x7b' :: ' ' :: (function.call args ++ [' ', '\x7d'])) where
  passes := by
    have called := Emittable.contained_call function contained
    refine ⟨rfl, rfl, Passes.append (Passes.of_run? (n := {}) (by decide) called) ?_⟩
    have reached : Nesting.after { depth := 1 } (function.call args) = { depth := 1 } :=
      Nesting.after_of_run? (called.run?_at 1)
    show Passes '\x7b' (Nesting.after { depth := 1 } (function.call args)) [' ', '\x7d']
    rw [reached]
    exact ⟨rfl, rfl, trivial⟩
  stop := by
    rw [← List.cons_append, ← List.cons_append, List.getLast?_append]
    simp
  kept := by simp [splitOpeningSign]
  refuses := by
    intro more
    have tokens : Token.tokensOf ('\x7b' :: ' ' :: (function.call args ++ [' ', '\x7d']) ++ more) =
        .sign "\x7b" :: .name function.name :: .sign "(" ::
          Token.tokensOf (args ++ ')' :: ' ' :: '\x7d' :: more) := by
      have split : '\x7b' :: ' ' :: (function.call args ++ [' ', '\x7d']) ++ more =
          '\x7b' :: ' ' :: (function.call args ++ ' ' :: '\x7d' :: more) := by simp
      rw [split, Token.tokensOf_sign rfl (by decide), Token.tokensOf_blank rfl, Token.tokensOf_call]
      rfl
    rw [splitOpeningSign_cons (by decide), tokens]
    rcases Token.tokensOf_append contained.closed (Emittable.delimits_close (' ' :: '\x7d' :: more))
      with ⟨reason, flaw, same⟩ | ⟨noFlaw, same⟩
    · rw [same]
      have inMap := List.mem_cons_of_mem (.sign "\x7b")
        (List.mem_cons_of_mem (.name function.name) (List.mem_cons_of_mem (.sign "(") flaw))
      exact not_expressible_of_flaw inMap
    · rw [same, Emittable.close_tokens, Token.tokensOf_blank rfl,
        Token.tokensOf_sign rfl (by decide)]
      exact expressible_mapOfCall (Token.levels?_tokensOf noFlaw contained)

end Spoils

theorem statement_behindBrace (opened : List OpenTag) (content rest : List Char) :
    Nests OfLoops opened ('\x7b' :: ((Tag.statement content).print ++ rest)) := by
  have spoiled := Spoils.statement.nests opened (content ++ ' ' :: '%' :: '\x7d' :: rest)
  simpa [Tag.print] using spoiled

theorem call_behindBrace (opened : List OpenTag) {function : PageFunction} {args : List Char}
    (contained : Contained args) (rest : List Char) :
    Nests OfLoops opened ('\x7b' :: ((Tag.echo (function.call args)).print ++ rest)) := by
  have spoiled := (Spoils.call function contained).nests opened ('\x7d' :: rest)
  simpa [Tag.print] using spoiled

/-! ### Echoes and conditions -/

theorem Passes.of_all {kind : Char} {n : Nesting} {text : List Char}
    (h : (text.all fun c => c != Segment.closingMark kind) = true) : Passes kind n text :=
  Passes.of_noMark fun c hmem => bne_iff_ne.mp (List.all_eq_true.mp h c hmem)

theorem passes_word {kind : Char} {word : List Char} (letters : ∀ c ∈ word, isWordChar c = true)
    (mark : isWordChar (Segment.closingMark kind) = false) (n : Nesting) : Passes kind n word := by
  refine Passes.of_noMark fun c hmem same => ?_
  rw [← same, letters c hmem] at mark
  cases mark

theorem passes_call {kind : Char} (noComment : kind ≠ '#')
    (mark : Segment.closingMark kind = '%' ∨ Segment.closingMark kind = '\x7d')
    (function : PageFunction) {args : List Char} (contained : Contained args) :
    Passes kind {} (function.call args) := by
  have noWord : isWordChar (Segment.closingMark kind) = false := by
    rcases mark with same | same <;> rw [same] <;> decide
  refine Passes.append (passes_word (Token.name_word function).2 noWord {}) ?_
  rw [Nesting.after_of_run? (Emittable.contained_name function)]
  refine ⟨?_, Passes.append (Passes.of_run? (n := {}) noComment contained) ?_⟩
  · rcases mark with same | same <;> rw [same] <;> simp
  · refine ⟨?_, trivial⟩
    rcases mark with same | same <;> rw [same] <;> simp

section

variable {opened : List OpenTag}

theorem emits_call {function : PageFunction} {args : List Char}
    (other : function ∉ [PageFunction.loopPush, .loopNext, .loopPop]) (h : Emittable args) :
    Emits opened opened (printTags [.echo (function.call args)]) := by
  have code : printTags [.echo (function.call args)] = (Tag.echo (function.call args)).print :=
    List.append_nil _
  rw [code]
  have passes : Passes '\x7b' {} (function.call args) :=
    passes_call (by decide) (.inr rfl) function h.contained
  have called := h.call other
  exact ⟨fun rest nests => Nests.emittedEcho passes called.contained called.shows nests,
    call_behindBrace opened h.contained⟩

def negatable (negated : Bool) (test : List Char) : List Char :=
  if negated then "not ".toList ++ test else test

theorem emittable_condition {function : PageFunction} {args : List Char}
    (other : function ∉ [PageFunction.loopPush, .loopNext, .loopPop]) (h : Emittable args)
    (negated : Bool) : Emittable (negatable negated (function.call args)) ∧
      Passes '%' {} (negatable negated (function.call args)) := by
  have called := h.call other
  have passes : Passes '%' {} (function.call args) :=
    passes_call (by decide) (.inl rfl) function h.contained
  cases negated with
  | false => exact ⟨called, passes⟩
  | true =>
      have word : Emittable "not".toList := .of_showsNames rfl rfl
      have not : Passes '%' {} "not ".toList := Passes.of_all rfl
      exact ⟨word.append called.behindBlank (delimits_blank _), Passes.append not passes⟩

section

variable {keyword : List Char} {condition : List Char}
  (start : keyword.head?.any isWordStart = true) (letters : ∀ c ∈ keyword, isWordChar c = true)
  (h : Emittable condition) (passes : Passes '%' {} condition)

include start letters h passes

theorem nests_keyword {before : List OpenTag} {rest : List Char}
    (spells : ∀ line, Spells OfLoops before (.openStatement :: .name (String.ofList keyword) ::
      (Token.tokensOf condition ++ .closeStatement :: pageTokens line false rest))) :
    Nests OfLoops before ((Tag.statement (keyword ++ ' ' :: condition)).print ++ rest) := by
  have word : Contained keyword :=
    Token.run?_neutral (fun c hmem =>
      Token.numeric_neutral (by simp [Literal.isNumeric, letters c hmem])) 0
  have inside : Passes '%' {} (keyword ++ ' ' :: condition) := by
    refine Passes.append (passes_word letters rfl {}) ?_
    rw [Nesting.after_of_run? word]
    exact ⟨rfl, passes⟩
  refine Nests.emittedStatement inside (word.append h.behindBlank.contained) fun line => ?_
  rw [Token.tokensOf_word start letters (delimits_blank _), Token.tokensOf_blank rfl]
  exact spells line

end

theorem emits_if (opened : List OpenTag) {condition : List Char} (h : Emittable condition)
    (passes : Passes '%' {} condition) :
    Emits opened (.condition :: opened)
      (printTags [.statement ("if".toList ++ ' ' :: condition)]) := by
  have code : printTags [.statement ("if".toList ++ ' ' :: condition)] =
      (Tag.statement ("if".toList ++ ' ' :: condition)).print := List.append_nil _
  rw [code]
  refine ⟨fun rest nests => ?_, statement_behindBrace opened _⟩
  exact nests_keyword rfl (List.all_eq_true.mp rfl) h passes fun line =>
    .condition (Token.inside_tokensOf _) h.shows (nests.spells line false)

theorem emits_elif (opened : List OpenTag) {condition : List Char} (h : Emittable condition)
    (passes : Passes '%' {} condition) :
    Emits (.condition :: opened) (.condition :: opened)
      (printTags [.statement ("elif".toList ++ ' ' :: condition)]) := by
  have code : printTags [.statement ("elif".toList ++ ' ' :: condition)] =
      (Tag.statement ("elif".toList ++ ' ' :: condition)).print := List.append_nil _
  rw [code]
  refine ⟨fun rest nests => ?_, statement_behindBrace _ _⟩
  exact nests_keyword rfl (List.all_eq_true.mp rfl) h passes fun line =>
    .alternative (Token.inside_tokensOf _) h.shows (nests.spells line false)

theorem nests_end {before : List OpenTag} {keyword rest : List Char}
    (start : keyword.head?.any isWordStart = true) (letters : ∀ c ∈ keyword, isWordChar c = true)
    (spells : ∀ line, Spells OfLoops before (.openStatement :: .name (String.ofList keyword) ::
      .closeStatement :: pageTokens line false rest)) :
    Nests OfLoops before ((Tag.statement keyword).print ++ rest) := by
  have word : Contained keyword :=
    Token.run?_neutral (fun c hmem =>
      Token.numeric_neutral (by simp [Literal.isNumeric, letters c hmem])) 0
  refine Nests.emittedStatement (passes_word letters rfl {}) word fun line => ?_
  have tokens := Token.tokensOf_word start letters Delimits.nil
  rw [List.append_nil] at tokens
  rw [tokens]
  exact spells line

theorem emits_endIf (opened : List OpenTag) :
    Emits (.condition :: opened) opened (printTags [.statement "endif".toList]) := by
  have code : printTags [.statement "endif".toList] = (Tag.statement "endif".toList).print :=
    List.append_nil _
  rw [code]
  refine ⟨fun rest nests => ?_, statement_behindBrace _ _⟩
  exact nests_end rfl (List.all_eq_true.mp rfl) fun line => .endCondition (nests.spells line false)

end

/-! ### Loops -/

/-- What stands in front of the call in a statement that takes the step or the end of a loop. -/
def setPrefix : List Char :=
  "set ".toList ++ Builtin.loopVariable ++ " = ".toList

theorem contained_setPrefix : Contained setPrefix := by
  unfold Contained
  decide +kernel

theorem passes_setPrefix : Passes '%' {} setPrefix :=
  Passes.of_all (by decide +kernel)

theorem tokensOf_setPrefix (rest : List Char) :
    Token.tokensOf (setPrefix ++ rest) =
      .name "set" :: .name "blade_loop" :: .sign "=" :: Token.tokensOf rest := by
  have text : setPrefix = "set".toList ++ ' ' :: ("blade_loop".toList ++ [' ', '=', ' ']) := by
    decide +kernel
  have split : setPrefix ++ rest =
      "set".toList ++ ' ' :: ("blade_loop".toList ++ ' ' :: '=' :: ' ' :: rest) := by
    rw [text]
    simp only [List.append_assoc, List.cons_append, List.nil_append]
  rw [split, Token.tokensOf_word rfl (List.all_eq_true.mp rfl) (delimits_blank _),
    Token.tokensOf_blank rfl, Token.tokensOf_word rfl (List.all_eq_true.mp rfl) (delimits_blank _),
    Token.tokensOf_blank rfl, Token.tokensOf_equals]
  rfl

theorem pageTokens_setLoopVariable (function : PageFunction) {args : List Char}
    {argTokens : List Token} (contained : Contained args)
    (tokens : Token.tokensOf (args ++ [')']) = argTokens ++ [.sign ")"]) (line : Nat)
    (rest : List Char) :
    ∃ line', pageTokens line false ((Builtin.setLoopVariable (function.call args)).print ++ rest) =
      Token.setTag function argTokens ++ pageTokens line' false rest := by
  have tag : Builtin.setLoopVariable (function.call args) =
      .statement (setPrefix ++ function.call args) := rfl
  have called := Emittable.contained_call function contained
  have passes : Passes '%' {} (setPrefix ++ function.call args) := by
    refine Passes.append passes_setPrefix ?_
    rw [Nesting.after_of_run? contained_setPrefix]
    exact passes_call (by decide) (.inl rfl) function contained
  have call := Token.tokensOf_call function args []
  rw [List.append_nil, tokens] at call
  obtain ⟨line', same⟩ :=
    Nests.pageTokens_statement rest passes (contained_setPrefix.append called) line false
  refine ⟨line', ?_⟩
  rw [tag, same, tokensOf_setPrefix, call]
  simp [Token.setTag]

theorem contained_kindLiteral (kind : LoopKind) : Contained (Builtin.kindLiteral kind) :=
  (Emittable.encodeLiteral _).contained

theorem kindLiteral_close (kind : LoopKind) :
    Token.tokensOf (Builtin.kindLiteral kind ++ [')']) = [.literal kind.name, .sign ")"] := by
  rw [Token.kindLiteral_tokens, Emittable.close_tokens, Token.tokensOf_nil]

theorem emits_endLoop (opened : List OpenTag) (kind : LoopKind) :
    Emits (.loop kind :: opened) opened
      (printTags [.statement "endfor".toList,
        Builtin.setLoopVariable (PageFunction.call .loopPop (Builtin.kindLiteral kind))]) := by
  have code : ∀ rest, printTags [.statement "endfor".toList,
      Builtin.setLoopVariable (PageFunction.call .loopPop (Builtin.kindLiteral kind))] ++ rest =
        (Tag.statement "endfor".toList).print ++
          ((Builtin.setLoopVariable
            (PageFunction.call .loopPop (Builtin.kindLiteral kind))).print ++ rest) := by
    simp [printTags]
  refine ⟨fun rest nests => ?_, fun rest => ?_⟩
  · rw [code]
    refine nests_end rfl (List.all_eq_true.mp rfl) fun line => ?_
    obtain ⟨line', tokens⟩ := pageTokens_setLoopVariable .loopPop (contained_kindLiteral kind)
      (show _ = [Token.literal kind.name] ++ [Token.sign ")"] from kindLiteral_close kind) line rest
    rw [tokens]
    exact .endLoop kind (nests.spells line' false)
  · rw [code]
    exact statement_behindBrace _ _ _

theorem commaSeparated_close (first second : List Char) :
    Builtin.commaSeparated first second ++ [')'] = first ++ ',' :: ' ' :: (second ++ [')']) := by
  simp [Builtin.commaSeparated]

theorem delimits_comma (rest : List Char) : Delimits (',' :: rest) :=
  Delimits.cons rest (by decide) (by decide)

theorem tokensOf_comma (rest : List Char) :
    Token.tokensOf (',' :: ' ' :: rest) = .sign "," :: Token.tokensOf rest := by
  rw [Token.tokensOf_sign rfl (by decide), Token.tokensOf_blank rfl]
  rfl

theorem contained_commaSeparated {first second : List Char} (hfirst : Contained first)
    (hsecond : Contained second) : Contained (Builtin.commaSeparated first second) :=
  (hfirst.append (show Contained ", ".toList from rfl)).append hsecond

theorem tokensOf_pushed (kind : LoopKind) {source : List Char} (h : Emittable source) :
    ∃ sources, (Expressible (.name PageFunction.loopPush.name :: .sign "(" :: Token.tokensOf
        (Builtin.commaSeparated source (Builtin.kindLiteral kind) ++ [')'])) →
      Token.tokensOf (Builtin.commaSeparated source (Builtin.kindLiteral kind) ++ [')']) =
        sources ++ [.literal kind.name, .sign ")"]) ∧
      Token.levels? 0 sources = some 0 ∧ sources.getLast? = some (.sign ",") ∧
      Token.Show OfLoops sources := by
  rw [commaSeparated_close]
  rcases Token.tokensOf_append h.contained.closed
      (delimits_comma (' ' :: (Builtin.kindLiteral kind ++ [')'])))
    with ⟨reason, flaw, same⟩ | ⟨noFlaw, same⟩
  · refine ⟨[.sign ","], fun expressible => ?_, rfl, rfl, by simp [Token.Show]⟩
    rw [same] at expressible
    have inCall := List.mem_cons_of_mem (.name PageFunction.loopPush.name)
      (List.mem_cons_of_mem (.sign "(") flaw)
    exact absurd expressible (not_expressible_of_flaw inCall)
  · refine ⟨Token.tokensOf source ++ [.sign ","], fun _ => ?_, ?_, List.getLast?_concat, ?_⟩
    · rw [same, tokensOf_comma, kindLiteral_close]
      simp
    · rw [Token.levels?_append, Token.levels?_tokensOf noFlaw h.contained]
      rfl
    · intro name hmem
      rcases List.mem_append.mp hmem with hmem | hmem
      · exact h.shows name hmem
      · simp at hmem

theorem isWord_boundName {iteration : Iteration} (bound : isVariable iteration.binding = true) :
    iteration.boundName.head?.any isWordStart = true ∧
      ∀ c ∈ iteration.boundName, isWordChar c = true := by
  unfold Iteration.boundName
  unfold isVariable at bound
  split at bound
  · next c rest same =>
      rw [same]
      simp only [Bool.and_eq_true, List.all_eq_true] at bound
      have noSigil : c ≠ '$' := by
        rintro rfl
        cases bound.1
      have letter : isWordChar c = true := isWordStart_isWordChar bound.1
      have name : List.dropWhile (· == '$') ('$' :: c :: rest) = c :: rest := by simp [noSigil]
      rw [name]
      exact ⟨bound.1, List.forall_mem_cons.mpr ⟨letter, bound.2⟩⟩
  · cases bound

theorem nextArguments {name : List Char} (start : name.head?.any isWordStart = true)
    (letters : ∀ c ∈ name, isWordChar c = true) (kind : LoopKind) :
    Token.tokensOf (Builtin.commaSeparated name (Builtin.kindLiteral kind) ++ [')']) =
      [.name (String.ofList name), .sign ",", .literal kind.name] ++ [.sign ")"] := by
  rw [commaSeparated_close, Token.tokensOf_word start letters (delimits_comma _), tokensOf_comma,
    kindLiteral_close]
  rfl

theorem tokensOf_for {name : List Char} (start : name.head?.any isWordStart = true)
    (letters : ∀ c ∈ name, isWordChar c = true) (args : List Char) :
    Token.tokensOf ("for ".toList ++ name ++ " in ".toList ++ PageFunction.call .loopPush args) =
      .name "for" :: .name (String.ofList name) :: .name "in" ::
        .name PageFunction.loopPush.name :: .sign "(" :: Token.tokensOf (args ++ [')']) := by
  have split : "for ".toList ++ name ++ " in ".toList ++ PageFunction.call .loopPush args =
      "for".toList ++ ' ' :: (name ++ ' ' :: ("in".toList ++
        ' ' :: (PageFunction.call .loopPush args ++ []))) := by
    simp
  rw [split, Token.tokensOf_word rfl (List.all_eq_true.mp rfl) (delimits_blank _),
    Token.tokensOf_blank rfl, Token.tokensOf_word start letters (delimits_blank _),
    Token.tokensOf_blank rfl, Token.tokensOf_word rfl (List.all_eq_true.mp rfl) (delimits_blank _),
    Token.tokensOf_blank rfl, Token.tokensOf_call]
  rfl

theorem contained_word {word : List Char} (letters : ∀ c ∈ word, isWordChar c = true) :
    Contained word :=
  Token.run?_neutral (fun c hmem =>
    Token.numeric_neutral (by simp [Literal.isNumeric, letters c hmem])) 0

theorem contained_for {name : List Char} (letters : ∀ c ∈ name, isWordChar c = true) :
    Contained ("for ".toList ++ name ++ " in ".toList) :=
  ((Contained.append (show Contained "for ".toList from rfl) (contained_word letters)).append
    (show Contained " in ".toList from rfl))

theorem passes_for {name : List Char} (letters : ∀ c ∈ name, isWordChar c = true) :
    Passes '%' {} ("for ".toList ++ name ++ " in ".toList) := by
  refine Passes.of_noMark fun c hmem same => ?_
  subst same
  simp only [List.mem_append] at hmem
  rcases hmem with (hmem | hmem) | hmem
  · exact absurd hmem (by decide)
  · exact absurd (letters _ hmem) (by decide)
  · exact absurd hmem (by decide)

theorem emits_openLoop (opened : List OpenTag) (kind : LoopKind) {iteration : Iteration}
    (bound : isVariable iteration.binding = true)
    (visible : ¬ Token.IsHidden (String.ofList iteration.boundName))
    (source : Emittable (pageExpression iteration.source)) :
    Emits opened (.loop kind :: opened) (printTags (Builtin.openLoop kind iteration)) := by
  obtain ⟨start, letters⟩ := isWord_boundName bound
  set name := iteration.boundName
  set items := Builtin.commaSeparated (pageExpression iteration.source) (Builtin.kindLiteral kind)
  set step := Builtin.commaSeparated name (Builtin.kindLiteral kind)
  have code : ∀ rest, printTags (Builtin.openLoop kind iteration) ++ rest =
      (Tag.statement ("for ".toList ++ name ++ " in ".toList ++
        PageFunction.call .loopPush items)).print ++
          ((Builtin.setLoopVariable (PageFunction.call .loopNext step)).print ++ rest) := by
    intro rest
    simp only [printTags, Builtin.openLoop, List.flatMap_cons, List.flatMap_nil, List.append_nil,
      List.append_assoc]
    rfl
  refine ⟨fun rest nests => ?_, fun rest => ?_⟩
  · have arguments : Contained items :=
      contained_commaSeparated source.contained (contained_kindLiteral kind)
    have passes : Passes '%' {} ("for ".toList ++ name ++ " in ".toList ++
        PageFunction.call .loopPush items) := by
      refine Passes.append (passes_for letters) ?_
      rw [Nesting.after_of_run? (contained_for letters)]
      exact passes_call (by decide) (.inl rfl) .loopPush arguments
    rw [code]
    refine Nests.emittedStatement passes
      ((contained_for letters).append (Emittable.contained_call _ arguments)) fun line => ?_
    obtain ⟨line', tokens⟩ := pageTokens_setLoopVariable .loopNext
      (contained_commaSeparated (contained_word letters) (contained_kindLiteral kind))
      (nextArguments start letters kind) line rest
    rw [tokens, tokensOf_for start letters]
    obtain ⟨sources, pushes, level, separated, shows⟩ := tokensOf_pushed kind source
    have inside : Token.Inside (.sign "(" :: Token.tokensOf (items ++ [')'])) :=
      List.forall_mem_cons.mpr ⟨trivial, Token.inside_tokensOf _⟩
    exact .loop kind visible inside (fun expressible => congrArg _ (pushes expressible))
      level separated
      shows (nests.spells line' false)
  · rw [code]
    exact statement_behindBrace _ _ _

end ThemeTemplates
