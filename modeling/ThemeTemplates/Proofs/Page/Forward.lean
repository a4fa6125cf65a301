import ThemeTemplates.Proofs.Page.Calls

/-!
# Reading forwards

Where the code of a page is known, its reader can be followed forwards: what it makes of the tokens
ahead and which of them it leaves. Two tokens decide how far an expression goes: the one it begins
with, and the one behind it.
-/

namespace ThemeTemplates

def Token.onLine (line : Nat) (tokens : List Token) : List Lexeme :=
  tokens.map fun token => ⟨token, line⟩

namespace Parse

open Expression

variable {α β : Type}

/-- A reader makes a result of the tokens ahead and leaves some of them, on any line and whatever
blocks were met. -/
def Yields (parse : Parse α) (ahead : List Lexeme) (result : α) (left : List Lexeme) : Prop :=
  ∀ line blocks, ∃ line', parse.run ⟨ahead, line, blocks⟩ = .ok (result, ⟨left, line', blocks⟩)

namespace Yields

variable {ahead between left : List Lexeme} {first : Parse α} {next : α → Parse β} {a : α} {b : β}

theorem pure (a : α) (ahead : List Lexeme) : Yields (Pure.pure a) ahead a ahead :=
  fun line _ => ⟨line, rfl⟩

theorem bind (h : Yields first ahead a between) (hnext : Yields (next a) between b left) :
    Yields (first >>= next) ahead b left := by
  intro line blocks
  obtain ⟨line', ran⟩ := h line blocks
  obtain ⟨line'', ran'⟩ := hnext line' blocks
  exact ⟨line'', (run_bind_of_ok ran next).trans ran'⟩

end Yields

/-! ### Tokens -/

def Sound (token : Token) : Prop :=
  ∀ flaw, token ≠ .flaw flaw

variable {token : Token} {line : Nat} {rest left : List Lexeme} {s : String}

theorem yields_peek (sound : Sound token) :
    Yields peek (⟨token, line⟩ :: rest) (some token) (⟨token, line⟩ :: rest) :=
  fun at' _ => ⟨at', run_peek_of_head rfl sound⟩

theorem yields_discard (sound : Sound token) :
    Yields (discard Parse.next) (⟨token, line⟩ :: rest) () rest :=
  fun _ _ => ⟨line, run_discard_next_of_head rfl sound⟩

theorem yields_next (sound : Sound token) :
    Yields Parse.next (⟨token, line⟩ :: rest) (some token) rest := by
  intro at' blocks
  refine ⟨line, ?_⟩
  rw [run_next, run_peek_of_head rfl sound]
  rfl

theorem yields_nextLine : Yields nextLine (⟨token, line⟩ :: rest) line (⟨token, line⟩ :: rest) :=
  fun at' _ => ⟨at', rfl⟩

theorem yields_bound (ahead : List Lexeme) : Yields bound ahead (ahead.length + 1) ahead :=
  fun at' _ => ⟨at', rfl⟩

theorem yields_skipSign (s : String) : Yields (skipSign s) (⟨.sign s, line⟩ :: rest) true rest := by
  refine (yields_peek (by simp [Sound])).bind ?_
  simp only [isSign, beq_self_eq_true, if_true]
  exact (yields_discard (by simp [Sound])).bind (.pure _ _)

theorem yields_skipSign_other (sound : Sound token) (other : token ≠ .sign s) :
    Yields (skipSign s) (⟨token, line⟩ :: rest) false (⟨token, line⟩ :: rest) := by
  refine (yields_peek sound).bind ?_
  have noSign : isSign s (some token) = false := by
    rw [← Bool.not_eq_true, isSign_iff]
    simpa using other
  simp only [noSign, Bool.false_eq_true, if_false]
  exact .pure _ _

theorem yields_skipName (s : String) : Yields (skipName s) (⟨.name s, line⟩ :: rest) true rest := by
  refine (yields_peek (by simp [Sound])).bind ?_
  simp only [isName, beq_self_eq_true, if_true]
  exact (yields_discard (by simp [Sound])).bind (.pure _ _)

theorem yields_skipName_other (sound : Sound token) (other : token ≠ .name s) :
    Yields (skipName s) (⟨token, line⟩ :: rest) false (⟨token, line⟩ :: rest) := by
  refine (yields_peek sound).bind ?_
  have noName : isName s (some token) = false := by
    rw [← Bool.not_eq_true, isName_iff]
    simpa using other
  simp only [noName, Bool.false_eq_true, if_false]
  exact .pure _ _

theorem yields_expectSign (s : String) : Yields (expectSign s) (⟨.sign s, line⟩ :: rest) () rest :=
  (yields_skipSign s).bind (.pure _ _)

theorem yields_expectName (s : String) : Yields expectName (⟨.name s, line⟩ :: rest) s rest :=
  (yields_peek (by simp [Sound])).bind ((yields_discard (by simp [Sound])).bind (.pure _ _))

theorem yields_expectCloseEcho :
    Yields expectCloseEcho (⟨.closeEcho, line⟩ :: rest) () rest :=
  (yields_peek (by simp [Sound])).bind (yields_discard (by simp [Sound]))

theorem yields_expectCloseStatement :
    Yields expectCloseStatement (⟨.closeStatement, line⟩ :: rest) () rest :=
  (yields_peek (by simp [Sound])).bind (yields_discard (by simp [Sound]))

/-! ### Where expressions begin and end -/

/-- The next of some tokens begins an expression without a sign and without brackets in front. -/
def Begins (ahead : List Lexeme) : Prop :=
  ∃ token line rest, ahead = ⟨token, line⟩ :: rest ∧ Sound token ∧ token ≠ .name "not" ∧
    ∀ s ∈ ["-", ")"], token ≠ .sign s

/-- The next of some tokens ends the expression in front of it. -/
def Ends (left : List Lexeme) : Prop :=
  ∃ token line rest, left = ⟨token, line⟩ :: rest ∧ Sound token ∧ Inert (some token) ∧
    ∀ s, token ≠ .literal s

theorem begins_name (noNot : s ≠ "not") (line : Nat) (rest : List Lexeme) :
    Begins (⟨.name s, line⟩ :: rest) :=
  ⟨_, _, _, rfl, by simp [Sound], by simpa using noNot, by simp⟩

theorem begins_literal (s : String) (line : Nat) (rest : List Lexeme) :
    Begins (⟨.literal s, line⟩ :: rest) :=
  ⟨_, _, _, rfl, by simp [Sound], by simp, by simp⟩

theorem begins_noFields (line : Nat) (rest : List Lexeme) :
    Begins (⟨.sign "\x7b", line⟩ :: rest) :=
  ⟨_, _, _, rfl, by simp [Sound], by simp, by simp⟩

theorem ends_sign (other : s ∉ [".", "[", "(", "|", "==", "+", "~"]) (line : Nat)
    (rest : List Lexeme) : Ends (⟨.sign s, line⟩ :: rest) :=
  ⟨_, _, _, rfl, by simp [Sound], inert_sign other, by simp⟩

theorem ends_closeEcho (line : Nat) (rest : List Lexeme) : Ends (⟨.closeEcho, line⟩ :: rest) :=
  ⟨_, _, _, rfl, by simp [Sound], ⟨by simp, by simp⟩, by simp⟩

theorem ends_closeStatement (line : Nat) (rest : List Lexeme) :
    Ends (⟨.closeStatement, line⟩ :: rest) :=
  ⟨_, _, _, rfl, by simp [Sound], ⟨by simp, by simp⟩, by simp⟩

namespace Begins

variable {ahead : List Lexeme}

theorem skipName (h : Begins ahead) : Yields (Parse.skipName "not") ahead false ahead := by
  obtain ⟨token, line, rest, rfl, sound, noNot, -⟩ := h
  exact yields_skipName_other sound noNot

theorem skipSign (h : Begins ahead) (hmem : s ∈ ["-", ")"]) :
    Yields (Parse.skipSign s) ahead false ahead := by
  obtain ⟨token, line, rest, rfl, sound, -, noSign⟩ := h
  exact yields_skipSign_other sound (noSign s hmem)

end Begins

namespace Ends

variable {parts : Parts} {nested : Parse Expression} {base value : Expression} {ahead : List Lexeme}

theorem skipSign (h : Ends left) (hmem : s ∈ [".", "[", "(", "|", "==", "+", "~"]) :
    Yields (Parse.skipSign s) left false left := by
  obtain ⟨token, line, rest, rfl, sound, inert, -⟩ := h
  exact yields_skipSign_other sound fun same => inert.not_sign hmem (congrArg some same)

theorem skipName (h : Ends left) : Yields (Parse.skipName "is") left false left := by
  obtain ⟨token, line, rest, rfl, sound, inert, -⟩ := h
  exact yields_skipName_other sound fun same => inert.2 (congrArg some same)

theorem steps (h : Ends left) (line n : Nat) (base : Expression) :
    Yields (Parse.steps nested line n base) left base left := by
  cases n with
  | zero => exact .pure _ _
  | succ n =>
      refine (h.skipSign (by simp)).bind ?_
      refine (h.skipSign (by simp)).bind ?_
      exact (h.skipSign (by simp)).bind (.pure _ _)

theorem filters (h : Ends left) (n : Nat) (base : Expression) :
    Yields (Parse.filters parts n base) left base left := by
  cases n with
  | zero => exact .pure _ _
  | succ n => exact (h.skipSign (by simp)).bind (h.skipName.bind (.pure _ _))

theorem joined (h : Ends left) (s : String) (hmem : s ∈ [".", "[", "(", "|", "==", "+", "~"])
    (part : Parse Expression) (n : Nat) : Yields (Parse.joined s part n) left [] left := by
  cases n with
  | zero => exact .pure _ _
  | succ n => exact (h.skipSign hmem).bind (.pure _ _)

theorem chain (h : Ends left) (s : String) (hmem : s ∈ [".", "[", "(", "|", "==", "+", "~"])
    (combine : Expression → Expression → Expression) {part : Parse Expression}
    (hpart : Yields part ahead value left) : Yields (Parse.chain s combine part) ahead value left :=
  hpart.bind ((yields_bound left).bind ((h.joined s hmem part _).bind (.pure _ _)))

theorem expressionWithin (h : Ends left) (begins : Begins ahead) (levels : Nat)
    (hsteps : Yields
      (signedSteps ⟨operand (Parse.expression levels), Parse.expressionWithin levels⟩)
      ahead value left) :
    Yields (Parse.expressionWithin (levels + 1)) ahead value left := by
  have parts : Parse.expressionWithin (levels + 1) = (do
      negation ⟨operand (Parse.expression levels), Parse.expressionWithin levels⟩ (← bound)) := by
    cases levels <;> rfl
  rw [parts]
  refine (yields_bound ahead).bind (begins.skipName.bind ?_)
  have factored : Yields
      (factor ⟨operand (Parse.expression levels), Parse.expressionWithin levels⟩) ahead
        value left :=
    (yields_bound ahead).bind (hsteps.bind (h.filters _ _))
  have summed := h.chain "+" (by simp) .sum (h.chain "~" (by simp) .join factored)
  exact summed.bind ((yields_bound left).bind ((h.joined "==" (by simp) _ _).bind (.pure _ _)))

end Ends

/-! ### Operands -/

variable {parts : Parts} {nested : Parse Expression} {base value : Expression} {ahead : List Lexeme}

theorem yields_word (s : String) :
    Yields (operand nested) (⟨.name s, line⟩ :: rest) (word line s) rest :=
  yields_nextLine.bind <| (yields_peek (by simp [Sound])).bind <|
    (yields_discard (by simp [Sound])).bind (.pure _ _)

theorem Ends.adjacentLiterals (h : Ends left) (n : Nat) :
    Yields (Parse.adjacentLiterals n) left "" left := by
  obtain ⟨token, line, rest, rfl, sound, -, noLiteral⟩ := h
  cases n with
  | zero => exact .pure _ _
  | succ n =>
      intro at' blocks
      refine ⟨at', ?_⟩
      cases token
      case flaw flaw => exact absurd rfl (sound flaw)
      case literal s => exact absurd rfl (noLiteral s)
      all_goals rfl

theorem Ends.literal (h : Ends left) (s : String) :
    Yields (operand nested) (⟨.literal s, line⟩ :: left) (.constant line (.ofString s)) left := by
  refine yields_nextLine.bind ((yields_peek (by simp [Sound])).bind ?_)
  refine (yields_discard (by simp [Sound])).bind ((yields_bound left).bind ?_)
  refine (h.adjacentLiterals _).bind ?_
  rw [String.append_empty]
  exact .pure _ _

theorem yields_noFields {closeLine : Nat} :
    Yields (operand nested) (⟨.sign "\x7b", line⟩ :: ⟨.sign "\x7d", closeLine⟩ :: rest)
      (.mapFrom line []) rest := by
  refine yields_nextLine.bind ((yields_peek (by simp [Sound])).bind ?_)
  refine (yields_discard (by simp [Sound])).bind ?_
  have closed : Yields (items "\x7d" (entry nested)) (⟨.sign "\x7d", closeLine⟩ :: rest) [] rest :=
    (yields_bound _).bind ((yields_skipSign _).bind (.pure _ _))
  exact closed.bind (.pure _ _)

theorem Begins.signedSteps {between : List Lexeme} (begins : Begins (⟨token, line⟩ :: rest))
    (hoperand : Yields parts.operand (⟨token, line⟩ :: rest) base between)
    (hsteps : Yields (steps parts.nested line (rest.length + 2) base) between value left) :
    Yields (signedSteps parts) (⟨token, line⟩ :: rest) value left := by
  refine yields_nextLine.bind ((yields_bound _).bind ?_)
  have unsigned : Yields (signed parts (rest.length + 2)) (⟨token, line⟩ :: rest) base between :=
    yields_nextLine.bind ((begins.skipSign (by simp)).bind hoperand)
  exact unsigned.bind hsteps

/-! ### Paths -/

def fieldsOf (base : Expression) (fields : List String) : Expression :=
  fields.foldl .field base

def fieldTokens (fields : List String) : List Token :=
  fields.flatMap fun field => [.sign ".", .name field]

theorem Ends.fields (h : Ends left) {at' n : Nat} {fields : List String}
    (enough : fields.length ≤ n) (base : Expression) :
    Yields (Parse.steps nested at' n base) (Token.onLine line (fieldTokens fields) ++ left)
      (fieldsOf base fields) left := by
  induction fields generalizing n base with
  | nil => exact h.steps at' n base
  | cons field fields ih =>
      cases n with
      | zero => cases enough
      | succ n =>
          have shorter : fields.length ≤ n := Nat.le_of_succ_le_succ enough
          have taken : Yields (member base)
              (⟨.name field, line⟩ :: (Token.onLine line (fieldTokens fields) ++ left))
              (.field base field) (Token.onLine line (fieldTokens fields) ++ left) :=
            yields_nextLine.bind <| (yields_peek (by simp [Sound])).bind <|
              (yields_discard (by simp [Sound])).bind (.pure _ _)
          exact (yields_skipSign ".").bind (taken.bind (ih shorter _))

theorem length_fieldTokens (fields : List String) :
    (fieldTokens fields).length = 2 * fields.length := by
  simp [fieldTokens, Nat.mul_comm]

theorem Ends.path (h : Ends left) {head : String} (noNot : head ≠ "not") (fields : List String)
    (levels : Nat) :
    Yields (Parse.expressionWithin (levels + 1))
      (Token.onLine line (.name head :: fieldTokens fields) ++ left)
      (fieldsOf (word line head) fields) left := by
  have begins : Begins (Token.onLine line (.name head :: fieldTokens fields) ++ left) :=
    begins_name noNot _ _
  refine h.expressionWithin begins levels (begins.signedSteps (yields_word head) (h.fields ?_ _))
  show fields.length ≤ (Token.onLine line (fieldTokens fields) ++ left).length + 2
  rw [List.length_append, Token.onLine, List.length_map, length_fieldTokens]
  omega

theorem Ends.text (h : Ends left) (s : String) (levels : Nat) :
    Yields (Parse.expressionWithin (levels + 1)) (⟨.literal s, line⟩ :: left)
      (.constant line (.ofString s)) left := by
  have begins := begins_literal s line left
  exact h.expressionWithin begins levels (begins.signedSteps (h.literal s) (h.steps _ _ _))

theorem Ends.noFields (h : Ends left) {closeLine : Nat} (levels : Nat) :
    Yields (Parse.expressionWithin (levels + 1))
      (⟨.sign "\x7b", line⟩ :: ⟨.sign "\x7d", closeLine⟩ :: left) (.mapFrom line []) left := by
  have begins := begins_noFields line (⟨.sign "\x7d", closeLine⟩ :: left)
  exact h.expressionWithin begins levels (begins.signedSteps yields_noFields (h.steps _ _ _))

/-! ### Calls -/

/-- Arguments between commas, each read as an expression, up to the closing parenthesis. -/
inductive Arguments (nested : Parse Expression) : List Lexeme → List Expression → List Lexeme → Prop
  | last {ahead left : List Lexeme} {value : Expression} {line : Nat} (begins : Begins ahead)
    (reads : Yields nested ahead value (⟨.sign ")", line⟩ :: left)) :
    Arguments nested ahead [value] left
  | more {ahead between left : List Lexeme} {value : Expression} {others : List Expression}
    {line : Nat} (begins : Begins ahead)
    (reads : Yields nested ahead value (⟨.sign ",", line⟩ :: between))
    (rest : Arguments nested between others left) : Arguments nested ahead (value :: others) left

theorem yields_argument (reads : Yields nested ahead value (⟨.sign s, line⟩ :: rest))
    (other : s ≠ "=") : Yields (argument nested) ahead (none, value) (⟨.sign s, line⟩ :: rest) := by
  refine reads.bind ?_
  have unnamed : Yields (skipSign "=") (⟨.sign s, line⟩ :: rest) false (⟨.sign s, line⟩ :: rest) :=
    yields_skipSign_other (by simp [Sound]) (by simpa using other)
  cases value
  case named => exact unnamed.bind (.pure _ _)
  all_goals exact .pure _ _

theorem yields_argumentsUntil {values : List Expression} (h : Arguments nested ahead values left)
    {n count : Nat} (enough : values.length ≤ n) (few : count + values.length ≤ argumentLimit) :
    Yields (argumentsUntil nested n count false) ahead (values.map fun value => (none, value))
      left := by
  induction h generalizing n count with
  | @last ahead left value line begins reads =>
      cases n with
      | zero => cases enough
      | succ n =>
          have below : ¬ argumentLimit ≤ count := by
            simp only [List.length_singleton] at few
            omega
          refine (begins.skipSign (by simp)).bind ((yields_argument reads (by simp)).bind ?_)
          simp only [Bool.false_and, Bool.false_eq_true, if_false, if_neg below]
          refine (yields_skipSign_other (by simp [Sound]) (by simp)).bind ?_
          exact (yields_expectSign ")").bind (.pure _ _)
  | @more ahead between left value others line begins reads rest ih =>
      cases n with
      | zero => cases enough
      | succ n =>
          have below : ¬ argumentLimit ≤ count := by
            simp only [List.length_cons] at few
            omega
          have fewer : count + 1 + others.length ≤ argumentLimit := by
            simp only [List.length_cons] at few
            omega
          have later := ih (Nat.le_of_succ_le_succ enough) fewer
          refine (begins.skipSign (by simp)).bind ((yields_argument reads (by simp)).bind ?_)
          simp only [Bool.false_and, Bool.false_eq_true, if_false, if_neg below]
          exact (yields_skipSign ",").bind (later.bind (.pure _ _))

theorem yields_arguments {values : List Expression} (h : Arguments nested ahead values left)
    (enough : values.length ≤ ahead.length) (few : values.length ≤ argumentLimit) (line : Nat) :
    Yields (arguments nested line) ahead values left := by
  refine (yields_bound ahead).bind ((yields_argumentsUntil h (by omega) (by omega)).bind ?_)
  set args : List (Option String × Expression) := values.map fun value => (none, value)
  have noneNamed : args.filter (fun arg => arg.1.isSome) = [] := by simp [args]
  have positional : (args.filter fun arg => arg.1.isNone).map Prod.snd = values := by
    simp [args, List.filter_map, Function.comp_def]
  simp only [noneNamed, positional, List.isEmpty_nil, if_true]
  exact .pure _ _

theorem Ends.call (h : Ends left) {function : String} (noNot : function ≠ "not")
    (plain : word line function = .named line function) {levels openLine : Nat} {args : List Lexeme}
    {values : List Expression}
    (reads : Arguments (Parse.expressionWithin levels) args values left)
    (enough : values.length ≤ args.length) (few : values.length ≤ argumentLimit) :
    Yields (Parse.expressionWithin (levels + 1))
      (⟨.name function, line⟩ :: ⟨.sign "(", openLine⟩ :: args)
      (.call (lastLine line values) function values) left := by
  have begins : Begins (⟨.name function, line⟩ :: ⟨.sign "(", openLine⟩ :: args) :=
    begins_name noNot _ _
  have named : Yields (operand (Parse.expression levels))
      (⟨.name function, line⟩ :: ⟨.sign "(", openLine⟩ :: args) (.named line function)
      (⟨.sign "(", openLine⟩ :: args) := plain ▸ yields_word function
  refine h.expressionWithin begins levels (begins.signedSteps named ?_)
  refine (yields_skipSign_other (by simp [Sound]) (by simp)).bind ?_
  refine (yields_skipSign_other (by simp [Sound]) (by simp)).bind ?_
  refine (yields_skipSign "(").bind ?_
  exact (yields_arguments reads enough few line).bind (h.steps _ _ _)

end Parse

end ThemeTemplates
