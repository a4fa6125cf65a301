import ThemeTemplates.Proofs.Page.Spelling
import ThemeTemplates.Proofs.Script.Tokens

/-!
# Pages of scripts

The reader of pages takes the page of a script for what the script says, as long as its loops do not
nest deeper than the reader goes.
-/

namespace ThemeTemplates

namespace Parse

variable {n levels : Nat} {ends : List String} {ahead inside after left : List Lexeme} {line : Nat}
  {body rest : List Statement} {value : Expression} {name : String}

theorem yields_statements_end : Yields (statements (n + 1) levels ends) [] [] [] :=
  fun line _ => ⟨line, rfl⟩

theorem yields_statements_text {s : String}
    (h : Yields (statements n levels ends) ahead rest left) :
    Yields (statements (n + 1) levels ends) (⟨.text s, line⟩ :: ahead) (.text s :: rest) left :=
  (yields_next (by simp [Sound])).bind (h.bind (.pure _ _))

theorem yields_statements_echo {closeLine : Nat}
    (expressed : Yields (expression levels) ahead value (⟨.closeEcho, closeLine⟩ :: after))
    (h : Yields (statements n levels ends) after rest left) :
    Yields (statements (n + 1) levels ends) (⟨.openEcho, line⟩ :: ahead) (.echo value :: rest)
      left :=
  (yields_next (by simp [Sound])).bind <|
    expressed.bind <| yields_expectCloseEcho.bind <| h.bind (.pure _ _)

theorem yields_atWord {word : String} {words : List String} :
    Yields (atWord words) (⟨.name word, line⟩ :: ahead) (words.contains word)
      (⟨.name word, line⟩ :: ahead) :=
  (yields_peek (by simp [Sound])).bind (.pure _ _)

theorem yields_statements_stop {word : String} {wordLine : Nat} (stops : word ∈ ends) :
    Yields (statements (n + 1) levels ends)
      (⟨.openStatement, line⟩ :: ⟨.name word, wordLine⟩ :: ahead)
      [] (⟨.name word, wordLine⟩ :: ahead) := by
  refine (yields_next (by simp [Sound])).bind (yields_atWord.bind ?_)
  rw [List.contains_iff_mem.mpr stops]
  exact .pure _ _

theorem yields_statements_tag {word : String} {wordLine closeLine : Nat} {first : Statement}
    (goesOn : word ∉ ends)
    (stated : Yields (statement levels (statements n levels))
      (⟨.name word, wordLine⟩ :: ahead) first
      (⟨.closeStatement, closeLine⟩ :: after))
    (h : Yields (statements n (levels + 1) ends) after rest left) :
    Yields (statements (n + 1) (levels + 1) ends)
      (⟨.openStatement, line⟩ :: ⟨.name word, wordLine⟩ :: ahead) (first :: rest) left := by
  refine (yields_next (by simp [Sound])).bind (yields_atWord.bind ?_)
  rw [Bool.eq_false_iff.mpr (fun found => goesOn (List.contains_iff_mem.mp found))]
  exact stated.bind (yields_expectCloseStatement.bind (h.bind (.pure _ _)))

theorem yields_boundName (free : name ∉ reservedNames) :
    Yields boundName (⟨.name name, line⟩ :: ahead) name ahead := by
  refine (yields_expectName name).bind ?_
  have unreserved : reservedNames.contains name = false :=
    Bool.eq_false_iff.mpr fun found => free (List.contains_iff_mem.mp found)
  simp only [unreserved, Bool.false_eq_true, if_false]
  exact .pure _ _

theorem yields_set {nameLine signLine : Nat} (free : name ∉ reservedNames) {each : Body}
    (expressed : Yields (expression levels) ahead value after) :
    Yields (statement levels each)
      (⟨.name "set", line⟩ :: ⟨.name name, nameLine⟩ :: ⟨.sign "=", signLine⟩ :: ahead)
      (.set name value) after := by
  refine yields_nextLine.bind ((yields_expectName "set").bind ?_)
  exact (yields_boundName free).bind ((yields_expectSign "=").bind (expressed.bind (.pure _ _)))

theorem yields_loopVariable (free : name ∉ reservedNames) (notIn : name ≠ "in") :
    Yields loopVariable (⟨.name name, line⟩ :: ahead) (some name) ahead := by
  refine (yields_peek (by simp [Sound])).bind ?_
  have other : isName "in" (some (.name name)) = false := by simpa [isName] using notIn
  simp only [other, Bool.false_eq_true, if_false]
  exact (yields_boundName free).bind (.pure _ _)

theorem yields_for {nameLine wordLine closeLine endLine : Nat} (free : name ∉ reservedNames)
    (notIn : name ≠ "in") {each : Body}
    (expressed : Yields (expressionWithin levels) ahead value
      (⟨.closeStatement, closeLine⟩ :: inside))
    (runs : Yields (each ["endfor", "else"]) inside body (⟨.name "endfor", endLine⟩ :: after)) :
    Yields (statement levels each)
      (⟨.name "for", line⟩ :: ⟨.name name, nameLine⟩ :: ⟨.name "in", wordLine⟩ :: ahead)
      (.forEach (some name) value body []) after := by
  refine yields_nextLine.bind ((yields_expectName "for").bind ?_)
  refine (yields_loopVariable free notIn).bind ((yields_skipName "in").bind (expressed.bind ?_))
  refine yields_expectCloseStatement.bind (runs.bind ?_)
  refine (yields_skipName_other (by simp [Sound]) (by simp)).bind ?_
  exact (yields_discard (by simp [Sound])).bind (.pure _ _)

theorem word_eq_named {line : Nat} {s : String}
    (free : s ∉ ["true", "True", "false", "False", "none", "None"]) :
      word line s = .named line s := by
  simp only [List.mem_cons, List.not_mem_nil, or_false, not_or] at free
  obtain ⟨h₁, h₂, h₃, h₄, h₅, h₆⟩ := free
  unfold word
  split <;> first | rfl | contradiction

/-- Tokens on a line are read as an expression wherever it ends behind them. -/
def Means (levels line : Nat) (tokens : List Token) (value : Expression) : Prop :=
  ∀ left, Ends left → Yields (expressionWithin levels) (Token.onLine line tokens ++ left) value left

end Parse

open Parse

/-! ### Expressions of a script -/

namespace Path

variable {path : Path}

def expression (line : Nat) (path : Path) : Expression :=
  fieldsOf (.named line path.head) path.fields

theorem line_expression (line : Nat) (path : Path) : (path.expression line).line = line := by
  have fields : ∀ (fields : List String) (base : Expression), (fieldsOf base fields).line =
      base.line := by
    intro fields
    induction fields with
    | nil => exact fun _ => rfl
    | cons field fields ih => exact fun base => ih (.field base field)
  exact fields path.fields _

theorem avoids_expression (h : path.isOrdinary = true) (line : Nat) :
    (path.expression line).Avoids OfLoops := by
  obtain ⟨-, -, -, variableHead⟩ := isOrdinary_iff.mp h
  have fields : ∀ (fields : List String) (base : Expression), base.Avoids OfLoops →
      (fieldsOf base fields).Avoids OfLoops := by
    intro fields
    induction fields with
    | nil => exact fun _ h => h
    | cons field fields ih => exact fun base h => ih (.field base field) h
  refine fields path.fields _ ?_
  rintro ⟨function, -, same⟩
  rw [same, PageFunction.ofName?_name] at variableHead
  cases variableHead

theorem means_tokens (h : path.isOrdinary = true) (line levels : Nat) :
    Means (levels + 1) line path.tokens (path.expression line) := by
  intro left ends
  obtain ⟨-, -, free, -⟩ := isOrdinary_iff.mp h
  simp only [reserved, List.mem_cons, List.not_mem_nil, or_false, not_or] at free
  have named : word line path.head = .named line path.head :=
    word_eq_named (by simpa only [List.mem_cons, List.not_mem_nil, or_false, not_or] using free.2)
  have reads : Yields (expressionWithin (levels + 1)) (Token.onLine line path.tokens ++ left)
      (fieldsOf (word line path.head) path.fields) left := ends.path free.1 path.fields levels
  rwa [named] at reads

theorem begins_tokens (h : path.isOrdinary = true) (line : Nat) (rest : List Lexeme) :
    Begins (Token.onLine line path.tokens ++ rest) := by
  obtain ⟨-, -, free, -⟩ := isOrdinary_iff.mp h
  simp only [reserved, List.mem_cons, List.not_mem_nil, or_false, not_or] at free
  exact begins_name free.1 _ _

end Path

namespace Operand

variable {operand : Operand}

def expression (line : Nat) : Operand → Expression
  | path _ p => p.expression line
  | text s => .constant line (.ofString s)

theorem line_expression (line : Nat) (operand : Operand) :
    (operand.expression line).line = line := by
  cases operand with
  | path sigil p => exact p.line_expression line
  | text s => rfl

theorem avoids_expression (h : operand.isOrdinary = true) (line : Nat) :
    (operand.expression line).Avoids OfLoops := by
  cases operand with
  | path sigil p => exact p.avoids_expression h line
  | text s => trivial

theorem means_tokens (h : operand.isOrdinary = true) (line levels : Nat) :
    Means (levels + 1) line operand.tokens (operand.expression line) := by
  cases operand with
  | path sigil p => exact p.means_tokens h line levels
  | text s => exact fun left ends => ends.text s levels

theorem begins_tokens (h : operand.isOrdinary = true) (line : Nat) (rest : List Lexeme) :
    Begins (Token.onLine line operand.tokens ++ rest) := by
  cases operand with
  | path sigil p => exact p.begins_tokens h line rest
  | text s => exact begins_literal s _ _

end Operand

namespace Script

variable {line levels : Nat} {source : Operand} {left : List Lexeme}

def itemsExpression (line : Nat) (kind : LoopKind) (source : Operand) : Expression :=
  match kind with
  | .loop => source.expression line
  | .simpleMenu => .call line PageFunction.navMenu.name [source.expression line]

theorem avoids_itemsExpression (kind : LoopKind) (h : source.isOrdinary = true) (line : Nat) :
    (itemsExpression line kind source).Avoids OfLoops := by
  cases kind with
  | loop => exact source.avoids_expression h line
  | simpleMenu => exact ⟨not_ofLoops (by decide), source.avoids_expression h line, trivial⟩

theorem means_itemsTokens (kind : LoopKind) (h : source.isOrdinary = true) (line levels : Nat) :
    Means (levels + 2) line (itemsTokens kind source) (itemsExpression line kind source) := by
  cases kind with
  | loop => exact source.means_tokens h line (levels + 1)
  | simpleMenu =>
      intro left ends
      have args : Arguments (expressionWithin (levels + 1))
          (Token.onLine line source.tokens ++ ⟨.sign ")", line⟩ :: left)
            [source.expression line] left :=
        .last (source.begins_tokens h line _)
          (source.means_tokens h line levels _ (ends_sign (by decide) line left))
      have call : Yields (expressionWithin (levels + 2))
          (⟨.name PageFunction.navMenu.name, line⟩ :: ⟨.sign "(", line⟩ ::
            (Token.onLine line source.tokens ++ ⟨.sign ")", line⟩ :: left))
          (.call (source.expression line).line PageFunction.navMenu.name [source.expression line])
          left :=
        ends.call (by decide) rfl args (by simp; omega) (by simp [argumentLimit])
      rw [Operand.line_expression] at call
      simpa [itemsTokens, itemsExpression, Token.onLine] using call

theorem begins_itemsTokens (kind : LoopKind) (h : source.isOrdinary = true) (line : Nat)
    (rest : List Lexeme) :
    Begins (Token.onLine line (itemsTokens kind source) ++ rest) := by
  cases kind with
  | loop => exact source.begins_tokens h line rest
  | simpleMenu => exact begins_name (by decide) _ _

def pushExpression (line : Nat) (kind : LoopKind) (source : Operand) : Expression :=
  .call line PageFunction.loopPush.name
    [itemsExpression line kind source, .constant line (.ofString kind.name)]

theorem arguments_kind (kind : LoopKind) (line levels : Nat) (left : List Lexeme) :
    Arguments (expressionWithin (levels + 1))
      (⟨.literal kind.name, line⟩ :: ⟨.sign ")", line⟩ :: left)
      [.constant line (.ofString kind.name)] left :=
  .last (begins_literal _ _ _) ((ends_sign (by decide) line left).text _ levels)

theorem means_push (kind : LoopKind) (h : source.isOrdinary = true) (line levels : Nat) :
    Means (levels + 3) line (.name PageFunction.loopPush.name :: .sign "(" ::
        (itemsTokens kind source ++ [.sign ",", .literal kind.name, .sign ")"]))
      (pushExpression line kind source) := by
  intro left ends
  have args := Arguments.more (begins_itemsTokens kind h line _)
    (means_itemsTokens kind h line levels _ (ends_sign (by decide) line _))
    (arguments_kind kind line (levels + 1) left)
  have call : Yields (expressionWithin (levels + 3)) (⟨.name PageFunction.loopPush.name, line⟩ ::
      ⟨.sign "(", line⟩ :: _) (pushExpression line kind source) left :=
    ends.call (by decide) rfl args (by simp; omega) (by simp [argumentLimit])
  simpa [Token.onLine] using call

def stepExpression (line : Nat) (kind : LoopKind) (name : String) : Expression :=
  .call line PageFunction.loopNext.name
    [.named line name, .constant line (.ofString kind.name)]

theorem means_step (kind : LoopKind) {name : String} (free : name ∉ unbindable)
    (line levels : Nat) :
    Means (levels + 2) line (.name PageFunction.loopNext.name :: .sign "(" ::
      ([.name name, .sign ",", .literal kind.name] ++ [.sign ")"]))
        (stepExpression line kind name) := by
  intro left ends
  simp only [unbindable, reservedNames, List.mem_append, List.mem_cons, List.not_mem_nil, or_false,
    not_or] at free
  have named : word line name = .named line name := word_eq_named (by simp [free])
  have nameRead : Yields (expressionWithin (levels + 1)) (⟨.name name, line⟩ :: ⟨.sign ",", line⟩ ::
      ⟨.literal kind.name, line⟩ :: ⟨.sign ")", line⟩ :: left) (.named line name)
      (⟨.sign ",", line⟩ :: ⟨.literal kind.name, line⟩ :: ⟨.sign ")", line⟩ :: left) :=
    named ▸ (ends_sign (by decide) line _).path free.1.1 [] levels
  have args := Arguments.more (begins_name free.1.1 _ _) nameRead
    (arguments_kind kind line levels left)
  exact ends.call (by decide) rfl args (by simp) (by simp [argumentLimit])

def popExpression (line : Nat) (kind : LoopKind) : Expression :=
  .call line PageFunction.loopPop.name [.constant line (.ofString kind.name)]

theorem means_pop (kind : LoopKind) (line levels : Nat) :
    Means (levels + 2) line
      (.name PageFunction.loopPop.name :: .sign "(" :: ([.literal kind.name] ++ [.sign ")"]))
      (popExpression line kind) :=
  fun left ends => ends.call (by decide) rfl (arguments_kind kind line levels left) (by simp)
    (by simp [argumentLimit])

def childExpression (line : Nat) (slug : String) : Expression :=
  .call line PageFunction.renderChild.name
    [.constant line (.ofString (childTemplate slug)), .mapFrom line []]

theorem avoids_childExpression (line : Nat) (slug : String) :
    (childExpression line slug).Avoids OfLoops :=
  ⟨not_ofLoops (by decide), trivial, trivial, trivial⟩

theorem means_child (slug : String) (line levels : Nat) :
    Means (levels + 2) line (childTokens slug) (childExpression line slug) := by
  intro left ends
  have dataRead : Arguments (expressionWithin (levels + 1))
      (⟨.sign "\x7b", line⟩ :: ⟨.sign "\x7d", line⟩ :: ⟨.sign ")", line⟩ :: left)
      [.mapFrom line []] left :=
    .last (begins_noFields _ _) ((ends_sign (by decide) line left).noFields levels)
  have args := Arguments.more (begins_literal (childTemplate slug) line _)
    ((ends_sign (by decide) line _).text _ levels) dataRead
  exact ends.call (by decide) rfl args (by simp) (by simp [argumentLimit])

/-! ### Statements of a script -/

def textOutline (text : String) (outline : Outline) : Outline :=
  if text.toList.isEmpty then outline else .text text outline

def outline (line : Nat) : Script → Outline
  | done text => textOutline text .done
  | echo text path rest =>
    let start := line + lineBreaks text.toList
    textOutline text (.echo (path.expression (shiftedLine 0 start)) (rest.outline start))
  | loop text kind source name body rest =>
    let start := line + lineBreaks text.toList
    let stop := start + body.breaks
    textOutline text (.loop kind (shiftedLine 0 start) name
      [itemsExpression (shiftedLine 0 start) kind source] (body.outline start) (rest.outline stop))
  | child text slug rest =>
    let start := line + lineBreaks text.toList
    textOutline text (.echo (childExpression (shiftedLine 0 start) slug) (rest.outline start))

/-- The tokens ahead are read as statements of some kind, whatever bound on the steps is given that
is greater than their number. -/
def ReadAs (levels : Nat) (ends : List String) (ahead : List Lexeme) (kind : List Statement → Prop)
    (left : List Lexeme) : Prop :=
  ∀ n, ahead.length < n → ∃ body, Yields (statements n levels ends) ahead body left ∧ kind body

/-- The tokens ahead are read as a statement of some kind, whatever bound on the steps is given that
is not less than their number. -/
def StatedAs (levels : Nat) (ahead : List Lexeme) (kind : Statement → Prop) (left : List Lexeme) :
    Prop :=
  ∀ n, ahead.length ≤ n → ∃ first, Yields (statement levels (statements n levels)) ahead
    first left ∧
    kind first

/-- Statements of some kind behind one that sets the variable of loops. -/
def BehindSet (value : Expression) (kind : List Statement → Prop) (body : List Statement) : Prop :=
  ∃ rest, body = .set "blade_loop" value :: rest ∧ kind rest

section

variable {tokens : List Token} {value : Expression} {inside after : List Lexeme}

theorem statedAs_set {function : PageFunction}
    (means : Means levels line (.name function.name :: .sign "(" :: (tokens ++ [.sign ")"])) value)
    (after : List Lexeme) :
    StatedAs (levels + 1)
      (Token.onLine line (setTokens function tokens) ++ ⟨.closeStatement, line⟩ :: after)
      (· = .set "blade_loop" value) (⟨.closeStatement, line⟩ :: after) := by
  intro n _
  have called : Yields (expression (levels + 1)) _ _ _ := means _ (ends_closeStatement line after)
  have stated : Yields (statement (levels + 1) (statements n (levels + 1))) (⟨.name "set", line⟩ ::
      ⟨.name "blade_loop", line⟩ :: ⟨.sign "=", line⟩ :: _) _ _ := yields_set (by decide) called
  exact ⟨.set "blade_loop" value, by simpa [Token.onLine, setTokens] using stated, rfl⟩

theorem statedAs_for (kind : LoopKind) (line : Nat) {name : String} {stopLine : Nat}
    {kindBody : List Statement → Prop} (free : name ∉ unbindable)
    (ordinary : source.isOrdinary = true)
    (hbody : ReadAs (levels + 3) ["endfor", "else"] inside kindBody
      (Token.onLine stopLine [.name "endfor", .closeStatement] ++ after)) :
    StatedAs (levels + 3)
      (Token.onLine line (forTokens kind source name) ++ ⟨.closeStatement, line⟩ :: inside)
      (fun first => ∃ body,
        first = .forEach (some name) (pushExpression line kind source) body [] ∧ kindBody body)
      (⟨.closeStatement, stopLine⟩ :: after) := by
  simp only [unbindable, List.mem_append, List.mem_cons, List.not_mem_nil, or_false, not_or] at free
  intro n long
  simp only [List.length_append, List.length_cons] at long
  obtain ⟨body, readsBody, kept⟩ := hbody n (by omega)
  have pushed := means_push kind ordinary line levels _ (ends_closeStatement line inside)
  have stated : Yields (statement (levels + 3) (statements n (levels + 3))) (⟨.name "for", line⟩ ::
      ⟨.name name, line⟩ :: ⟨.name "in", line⟩ :: _) _ _ :=
    yields_for free.2 free.1.2.1 pushed readsBody
  exact ⟨_, by simpa [Token.onLine, forTokens] using stated, body, rfl, kept⟩

end

theorem onLine_tag (line : Nat) (tokens : List Token) (inside : List Lexeme) :
    Token.onLine line (.openStatement :: (tokens ++ [.closeStatement])) ++ inside =
      ⟨.openStatement, line⟩ ::
        (Token.onLine line tokens ++ ⟨.closeStatement, line⟩ :: inside) := by
  simp [Token.onLine]

namespace ReadAs

variable {ends : List String} {ahead inside after : List Lexeme} {tokens : List Token}
  {value : Expression} {kindBody kindRest : List Statement → Prop} {rest outlineBody : Outline}

theorem nothing : ReadAs levels ends [] (Outline.Codes OfLoops .done) [] := by
  intro n short
  cases n with
  | zero => cases short
  | succ n => exact ⟨[], yields_statements_end, .done⟩

theorem stop {word : String} (stops : word ∈ ends) (line : Nat) (tokens : List Token)
    (after : List Lexeme) :
    ReadAs levels ends (Token.onLine line (.openStatement :: .name word :: tokens) ++ after)
      (Outline.Codes OfLoops .done) (Token.onLine line (.name word :: tokens) ++ after) := by
  intro n short
  cases n with
  | zero => cases short
  | succ n => exact ⟨[], yields_statements_stop stops, .done⟩

theorem text (h : ReadAs levels ends ahead (Outline.Codes OfLoops rest) left) (text : String)
    (line : Nat) :
    ReadAs levels ends (textLexemes line text ++ ahead)
      (Outline.Codes OfLoops (textOutline text rest)) left := by
  unfold textLexemes textOutline
  split
  · exact h
  · intro n short
    cases n with
    | zero => cases short
    | succ n =>
        obtain ⟨body, reads, codes⟩ := h n (by simpa using short)
        exact ⟨.text text :: body, yields_statements_text reads, .text text codes⟩

theorem echo (means : Means levels line tokens value) (avoids : value.Avoids OfLoops)
    (h : ReadAs (levels + 1) ends after (Outline.Codes OfLoops rest) left) :
    ReadAs (levels + 1) ends (Token.onLine line (.openEcho :: (tokens ++ [.closeEcho])) ++ after)
      (Outline.Codes OfLoops (.echo value rest)) left := by
  intro n short
  cases n with
  | zero => cases short
  | succ n =>
      simp only [Token.onLine, List.length_append, List.length_map, List.length_cons] at short
      obtain ⟨body, reads, codes⟩ := h n (by omega)
      have shown : Yields (expression (levels + 1)) _ _ _ := means _ (ends_closeEcho line after)
      refine ⟨.echo value :: body, ?_, .echo avoids codes⟩
      have all : Yields (statements (n + 1) (levels + 1) ends) (⟨.openEcho, line⟩ :: _) _ left :=
        yields_statements_echo shown reads
      simpa [Token.onLine] using all

theorem tag {word : String} {args : List Token} {closeLine : Nat} {kindFirst : Statement → Prop}
    (goesOn : word ∉ ends) (begins : tokens = .name word :: args)
    (states : StatedAs levels (Token.onLine line tokens ++ ⟨.closeStatement, line⟩ :: inside)
      kindFirst
      (⟨.closeStatement, closeLine⟩ :: after))
    (shorter : after.length ≤ inside.length) (h : ReadAs (levels + 1) ends after kindRest left) :
    ReadAs (levels + 1) ends
      (Token.onLine line (.openStatement :: (tokens ++ [.closeStatement])) ++ inside)
      (fun body => ∃ first rest, body = first :: rest ∧ kindFirst first ∧ kindRest rest) left := by
  rw [onLine_tag]
  intro n short
  cases n with
  | zero => cases short
  | succ n =>
      simp only [List.length_append, List.length_cons] at short
      obtain ⟨first, stated, keptFirst⟩ := states n (by simp; omega)
      obtain ⟨rest, reads, keptRest⟩ := h n (by omega)
      subst begins
      exact ⟨first :: rest, yields_statements_tag goesOn stated reads, first, rest, rfl, keptFirst,
        keptRest⟩

theorem weaken (h : ReadAs levels ends ahead kindBody left)
    (imp : ∀ body, kindBody body → kindRest body) :
    ReadAs levels ends ahead kindRest left := by
  intro n short
  obtain ⟨body, reads, kept⟩ := h n short
  exact ⟨body, reads, imp body kept⟩

theorem set {function : PageFunction} (goesOn : "set" ∉ ends)
    (means : Means levels line (.name function.name :: .sign "(" :: (tokens ++ [.sign ")"])) value)
    (h : ReadAs (levels + 2) ends after kindRest left) :
    ReadAs (levels + 2) ends
      (Token.onLine line (.openStatement :: (setTokens function tokens ++ [.closeStatement])) ++
        after)
      (BehindSet value kindRest) left := by
  refine (ReadAs.tag goesOn rfl (statedAs_set means after) le_rfl h).weaken ?_
  rintro _ ⟨_, rest, rfl, rfl, kept⟩
  exact ⟨rest, rfl, kept⟩

theorem loop (kind : LoopKind) (line : Nat) {name : String} {stepLine stopLine : Nat}
    (goesOn : "for" ∉ ends) (visible : ¬ Token.IsHidden name) (free : name ∉ unbindable)
    (ordinary : source.isOrdinary = true)
    (hbody : ReadAs (levels + 3) ["endfor", "else"] inside
      (BehindSet (stepExpression stepLine kind name) (Outline.Codes OfLoops outlineBody))
      (Token.onLine stopLine [.name "endfor", .closeStatement] ++ after))
    (shorter : after.length ≤ inside.length)
    (h : ReadAs (levels + 4) ends after
      (BehindSet (popExpression stopLine kind) (Outline.Codes OfLoops rest)) left) :
    ReadAs (levels + 4) ends (Token.onLine line
      (.openStatement :: (forTokens kind source name ++ [.closeStatement])) ++ inside)
      (Outline.Codes OfLoops
        (.loop kind line name [itemsExpression line kind source] outlineBody rest))
      left := by
  refine (ReadAs.tag goesOn rfl (statedAs_for kind line free ordinary hbody) shorter h).weaken ?_
  rintro _ ⟨_, _, rfl, ⟨_, rfl, ⟨inner, rfl, codesBody⟩⟩, later, rfl, codesRest⟩
  exact .loop kind visible ⟨avoids_itemsExpression kind ordinary line, trivial⟩ codesBody codesRest

end ReadAs

theorem onLine_openTokens (line : Nat) (kind : LoopKind) (source : Operand) (name : String) :
    Token.onLine line (openTokens kind source name) =
      Token.onLine line (.openStatement :: (forTokens kind source name ++ [.closeStatement])) ++
        Token.onLine line (.openStatement :: (setTokens .loopNext
          [.name name, .sign ",", .literal kind.name] ++ [.closeStatement])) :=
  List.map_append

theorem onLine_closeTokens (line : Nat) (kind : LoopKind) :
    Token.onLine line (closeTokens kind) =
      Token.onLine line [.openStatement, .name "endfor", .closeStatement] ++
        Token.onLine line (.openStatement ::
          (setTokens .loopPop [.literal kind.name] ++ [.closeStatement])) :=
  List.map_append

/-- The tokens of a script are read as code of what the script says where enough levels of nesting
are left: one for each loop, and four more. -/
theorem readAs_lexemes {script : Script} (h : script.isOrdinary = true)
    (deep : script.height + 4 ≤ levels) {ends : List String} (noFor : "for" ∉ ends)
    (noSet : "set" ∉ ends) {tail : List Lexeme}
    (stops : ReadAs levels ends tail (Outline.Codes OfLoops .done) left) (line : Nat) :
    ReadAs levels ends (script.lexemes line ++ tail) (Outline.Codes OfLoops (script.outline line))
      left := by
  induction script generalizing levels ends tail left line with
  | done text => exact stops.text text line
  | echo text path rest ih =>
      simp only [isOrdinary, Bool.and_eq_true] at h
      obtain ⟨⟨-, ordinary⟩, later⟩ := h
      obtain ⟨l, rfl⟩ := Nat.exists_eq_add_of_le' (Nat.le_trans (Nat.le_add_left 4 _) deep)
      set start := line + lineBreaks text.toList
      have shown := (ih later deep noFor noSet stops start).echo
        (path.means_tokens ordinary (shiftedLine 0 start) (l + 2))
        (path.avoids_expression ordinary _)
      simpa only [lexemes, outline, List.append_assoc] using shown.text text line
  | child text slug rest ih =>
      simp only [isOrdinary, Bool.and_eq_true] at h
      obtain ⟨l, rfl⟩ := Nat.exists_eq_add_of_le' (Nat.le_trans (Nat.le_add_left 4 _) deep)
      set start := line + lineBreaks text.toList
      have shown := (ih h.2 deep noFor noSet stops start).echo
        (means_child slug (shiftedLine 0 start) (l + 1)) (avoids_childExpression _ slug)
      simpa only [lexemes, outline, List.append_assoc] using shown.text text line
  | loop text kind source name body rest ihBody ihRest =>
      simp only [isOrdinary, Bool.and_eq_true, Bool.not_eq_true'] at h
      obtain ⟨⟨⟨⟨⟨-, sourced⟩, named⟩, bindable⟩, ordinaryBody⟩, ordinaryRest⟩ := h
      have free : name ∉ unbindable := fun hmem => by
        rw [List.contains_iff_mem.mpr hmem] at bindable
        cases bindable
      have deepBody : body.height + 5 ≤ levels :=
        (Nat.add_le_add_right (Nat.le_max_left (body.height + 1) rest.height) 4).trans deep
      have deepRest : rest.height + 4 ≤ levels :=
        (Nat.add_le_add_right (Nat.le_max_right (body.height + 1) rest.height) 4).trans deep
      obtain ⟨l, rfl⟩ := Nat.exists_eq_add_of_le' (Nat.le_trans (Nat.le_add_left 5 _) deepBody)
      set start := line + lineBreaks text.toList
      set stop := start + body.breaks
      have popped := (ihRest ordinaryRest deepRest noFor noSet stops stop).set noSet
        (means_pop kind (shiftedLine 0 stop) (l + 1))
      set after := Token.onLine (shiftedLine 0 stop) (.openStatement ::
        (setTokens .loopPop [.literal kind.name] ++ [.closeStatement])) ++
          (rest.lexemes stop ++ tail)
      have closing : ReadAs (l + 4) ["endfor", "else"] (Token.onLine (shiftedLine 0 stop)
          [.openStatement, .name "endfor", .closeStatement] ++ after) (Outline.Codes OfLoops .done)
          (Token.onLine (shiftedLine 0 stop) [.name "endfor", .closeStatement] ++ after) :=
        .stop (by simp) _ _ _
      have inner : body.height + 4 ≤ l + 4 := by omega
      have inside := (ihBody ordinaryBody inner (by simp) (by simp) closing start).set (by simp)
        (means_step kind free (shiftedLine 0 start) l)
      have looped := ReadAs.loop kind (shiftedLine 0 start) noFor (isName_iff.mp named).2
        free sourced
        inside (by simp; omega) popped
      have reads := looped.text text line
      simpa only [lexemes, outline, onLine_openTokens, onLine_closeTokens,
        List.append_assoc] using reads

def heightLimit : Nat :=
  levelLimit - 4

theorem parse_code {script : Script} (h : script.isOrdinary = true)
    (shallow : script.height ≤ heightLimit) (template : String) :
    ∃ page, Page.parse template script.code = .ok page ∧ page.template = template ∧
      Outline.Codes OfLoops (script.outline 1) page.body := by
  have deep : script.height + 4 ≤ levelLimit := Nat.add_le_of_le_sub (by decide) shallow
  obtain ⟨body, reads, codes⟩ :=
    readAs_lexemes h deep List.not_mem_nil List.not_mem_nil .nothing 1 _
    (Nat.lt_succ_self _)
  obtain ⟨line, ran⟩ := reads 0 []
  have parsed : Page.parse template script.code = .ok { template, body } := by
    rw [List.append_nil, ← ofPage_code h] at ran
    exact parse_eq_ok_iff.mpr ⟨rfl, _, ran⟩
  exact ⟨_, parsed, rfl, codes⟩

end Script

end ThemeTemplates
