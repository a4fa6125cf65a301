import ThemeTemplates.Proofs.Page.Calls
import ThemeTemplates.Proofs.Page.Outline

/-!
# How tidy pages are spelled

The tokens of a page in which loops and conditionals nest, as the directives emit them. If such a
page can be read at all, it codes an outline and is tidy.
-/

namespace ThemeTemplates

variable {hidden : String → Prop}

namespace Token

def IsInner : Token → Prop
  | name _ | literal _ | number _ | sign _ | flaw _ => True
  | _ => False

theorem not_isInner_closeEcho : ¬ closeEcho.IsInner :=
  id

theorem not_isInner_closeStatement : ¬ closeStatement.IsInner :=
  id

def Inside (tokens : List Token) : Prop :=
  ∀ token ∈ tokens, token.IsInner

/-- A statement that calls a function of a loop and sets a variable to the answer. -/
def setTag (function : PageFunction) (args : List Token) : List Token :=
  .openStatement :: .name "set" :: .name "blade_loop" :: .sign "=" :: .name function.name ::
    .sign "(" :: (args ++ [.sign ")", .closeStatement])

end Token

namespace Parse

variable {cursor cursor' : Cursor} {value : Expression} {tokens rest : List Token} {stop : Token}

/-! ### Expressions up to the end of a tag -/

/-- Whether some expression takes exactly these tokens somewhere. -/
def Expressible (tokens : List Token) : Prop :=
  ∃ levels cursor value cursor', (expressionWithin levels).run cursor = .ok (value, cursor') ∧
    cursor.ahead.map Lexeme.token = tokens ++ cursor'.ahead.map Lexeme.token

theorem isInner_of_bracket? {pending after : List String} {token : Token}
    (h : token.bracket? pending = some after) : token.IsInner := by
  cases token <;> trivial

theorem inside_of_brackets? {pending after : List String}
    (h : Token.brackets? pending tokens = some after) : Token.Inside tokens := by
  induction tokens generalizing pending with
  | nil => exact fun _ hmem => absurd hmem List.not_mem_nil
  | cons token tokens ih =>
      obtain ⟨between, first, second⟩ := Option.bind_eq_some_iff.mp h
      exact List.forall_mem_cons.mpr ⟨isInner_of_bracket? first, ih second⟩

theorem noFlaw_of_brackets? {pending after : List String}
    (h : Token.brackets? pending tokens = some after) (reason : PageFlaw) :
    Token.flaw reason ∉ tokens := by
  induction tokens generalizing pending with
  | nil => exact List.not_mem_nil
  | cons token tokens ih =>
      obtain ⟨between, first, second⟩ := Option.bind_eq_some_iff.mp h
      rw [List.mem_cons, not_or]
      refine ⟨?_, ih second⟩
      rintro rfl
      cases first

theorem Expressible.brackets? (h : Expressible tokens) : Token.brackets? [] tokens = some [] := by
  obtain ⟨levels, cursor, value, cursor', run, ahead⟩ := h
  have reads : Reads (fun _ => False) (expressionWithin levels)
      (Expression.Avoids fun _ => False) :=
    expressionWithin_reads levels
  obtain ⟨taken, split, brackets, -⟩ := reads cursor value cursor' run
  rw [List.append_cancel_right (ahead.symm.trans split)]
  exact brackets

theorem expressionWithin_closed (hidden : String → Prop) {levels : Nat}
    (inside : Token.Inside tokens) (outer : ¬ stop.IsInner)
    (ahead : cursor.ahead.map Lexeme.token = tokens ++ stop :: rest)
    (run : (expressionWithin levels).run cursor = .ok (value, cursor'))
    (closed : head? cursor' = some stop) :
    (passed cursor').ahead.map Lexeme.token = rest ∧ Expressible tokens ∧
      (Token.Show hidden tokens → value.Avoids hidden) := by
  have reads : Reads hidden (expressionWithin levels) (Expression.Avoids hidden) :=
    expressionWithin_reads levels
  obtain ⟨taken, split, brackets, avoids⟩ := reads cursor value cursor' run
  have atStop := ahead_of_head closed
  have same : taken = tokens := by
    rw [atStop] at split
    rcases List.append_eq_append_iff.mp (ahead.symm.trans split) with
      ⟨more, longer, behind⟩ | ⟨more, shorter, behind⟩
    · cases more with
      | nil => rw [longer, List.append_nil]
      | cons token more =>
          obtain ⟨rfl, -⟩ := List.cons.inj behind
          have inner := inside_of_brackets? brackets stop (by rw [longer]; simp)
          exact absurd inner outer
    · cases more with
      | nil => rw [shorter, List.append_nil]
      | cons token more =>
          obtain ⟨rfl, -⟩ := List.cons.inj behind
          exact absurd (inside stop (by rw [shorter]; simp)) outer
  subst same
  have behind := List.append_cancel_left (ahead.symm.trans split)
  rw [atStop] at behind
  exact ⟨((List.cons.inj behind).2).symm, ⟨levels, cursor, value, cursor', run, split⟩, avoids⟩

theorem expressionWithin_unclosed {levels : Nat} (inside : Token.Inside tokens)
    (outer : ¬ stop.IsInner) (ahead : cursor.ahead.map Lexeme.token = tokens)
    (run : (expressionWithin levels).run cursor = .ok (value, cursor')) :
    head? cursor' ≠ some stop := by
  intro closed
  have reads : Reads (fun _ => False) (expressionWithin levels)
      (Expression.Avoids fun _ => False) :=
    expressionWithin_reads levels
  obtain ⟨taken, split, -, -⟩ := reads cursor value cursor' run
  rw [ahead, ahead_of_head closed] at split
  exact outer (inside stop (by rw [split]; simp))

theorem expressible_stuck {s : String} (other : s ∉ ["(", "[", "\x7b", "-"]) :
    ¬ Expressible (.sign s :: tokens) := by
  rintro ⟨levels, cursor, value, cursor', run, ahead⟩
  exact expressionWithin_stuck (head?_eq ahead).1 other run

theorem not_colon_behind {function : String} {taken behind : List Token}
    (level : Token.levels? 0 tokens = some 0) (balanced : Token.levels? 0 taken = some 0) :
    .name function :: .sign "(" :: (tokens ++ .sign ")" :: .sign "\x7d" :: rest) ≠
      taken ++ .sign ":" :: behind := by
  intro split
  cases taken with
  | nil => simp at split
  | cons first taken =>
      obtain ⟨rfl, inCall⟩ := List.cons.inj split
      cases taken with
      | nil => simp at inCall
      | cons second taken =>
          obtain ⟨rfl, inArguments⟩ := List.cons.inj inCall
          have inside : Token.levels? 1 taken = some 0 := balanced
          rcases List.append_eq_append_iff.mp inArguments with
            ⟨more, longer, after⟩ | ⟨more, shorter, -⟩
          · rw [longer, Token.levels?_append, Token.levels?_under level 1] at inside
            cases more with
            | nil => simp at after
            | cons third more =>
                obtain ⟨rfl, afterCall⟩ := List.cons.inj after
                cases more with
                | nil => simp at afterCall
                | cons fourth more =>
                    obtain ⟨rfl, -⟩ := List.cons.inj afterCall
                    cases inside
          · rw [shorter, Token.levels?_append] at level
            obtain ⟨depth, reached, -⟩ := Option.bind_eq_some_iff.mp level
            have deeper := Token.levels?_under reached 1
            rw [Nat.zero_add, inside] at deeper
            cases deeper

theorem expressible_mapOfCall {function : String} (level : Token.levels? 0 tokens = some 0) :
    ¬ Expressible (.sign "\x7b" :: .name function :: .sign "(" ::
      (tokens ++ .sign ")" :: .sign "\x7d" :: rest)) := by
  rintro ⟨levels, cursor, value, cursor', run, ahead⟩
  obtain ⟨first, behind⟩ := head?_eq ahead
  obtain ⟨second, -⟩ := head?_eq behind
  obtain ⟨nested, _, _, _, base, reached, stepped, atEnd, isNested, -, operating, -⟩ :=
    expressionWithin_operand (by simp [first]) (by simp [first]) run
  obtain ⟨line, -, operating⟩ := look_eq looks_nextLine operating
  have known := peek_eq operating
  rw [first] at known
  obtain ⟨entries, stop, reading, -⟩ := ok_of_run_bind (discard_eq known)
  obtain ⟨n, -, reading⟩ := look_eq looks_bound reading
  cases n with
  | zero => exact absurd reading (not_ok_of_fails fails_unexpected)
  | succ n =>
      have started := eq_of_skipSign (by simp [second]) reading
      obtain ⟨entry, afterEntry, readingEntry, -⟩ := ok_of_run_bind started
      obtain ⟨key, afterKey, ran, pairing⟩ := ok_of_run_bind readingEntry
      obtain ⟨colon, -⟩ := expectSign_eq pairing
      have reads : Reads (fun _ => False) nested (Expression.Avoids fun _ => False) :=
        isNested.reads
      obtain ⟨taken, split, brackets, -⟩ := reads _ key afterKey ran
      have balanced : Token.levels? 0 taken = some 0 := Token.levels?_of_brackets? brackets
      rw [ahead_of_head colon] at split
      have inMap : (passed cursor).ahead.map Lexeme.token = .name function :: .sign "(" ::
          (tokens ++ .sign ")" :: .sign "\x7d" :: (rest ++ cursor'.ahead.map Lexeme.token)) := by
        rw [behind]
        simp
      exact not_colon_behind level balanced (inMap.symm.trans split)

/-! ### Statements -/

theorem next_eq {α : Type} {next : Option Token → Parse α} {a : α}
    (run : (Parse.next >>= next).run cursor = .ok (a, cursor')) :
    (next (head? cursor)).run (passed cursor) = .ok (a, cursor') := by
  obtain ⟨head, reached, ran, rest⟩ := ok_of_run_bind run
  rw [run_next] at ran
  cases peeked : peek.run cursor with
  | error error =>
      rw [peeked] at ran
      cases ran
  | ok seen =>
      obtain ⟨rfl, same, -⟩ := run_peek peeked
      rw [peeked] at ran
      cases ran
      rw [← same]
      exact rest

theorem run_expression {levels : Nat}
    (run : (expression levels).run cursor = .ok (value, cursor')) :
    ∃ inner, levels = inner + 1 ∧ (expressionWithin inner).run cursor = .ok (value, cursor') := by
  cases levels with
  | zero => exact absurd run (not_ok_of_fails fails_tooDeep)
  | succ inner => exact ⟨inner, rfl, run⟩

theorem closeEcho_eq {α : Type} {next : Unit → Parse α} {a : α}
    (run : (expectCloseEcho >>= next).run cursor = .ok (a, cursor')) :
    head? cursor = some .closeEcho ∧ (next ()).run (passed cursor) = .ok (a, cursor') := by
  obtain ⟨_, reached, ran, rest⟩ := ok_of_run_bind run
  have known := peek_eq ran
  split at known
  · next same =>
      cases passed_of_discard known
      exact ⟨same, rest⟩
  · exact absurd known (not_ok_of_fails fails_unexpected)

theorem closeStatement_eq {α : Type} {next : Unit → Parse α} {a : α}
    (run : (expectCloseStatement >>= next).run cursor = .ok (a, cursor')) :
    head? cursor = some .closeStatement ∧ (next ()).run (passed cursor) = .ok (a, cursor') := by
  obtain ⟨_, reached, ran, rest⟩ := ok_of_run_bind run
  have known := peek_eq ran
  split at known
  · next same =>
      cases passed_of_discard known
      exact ⟨same, rest⟩
  · exact absurd known (not_ok_of_fails fails_unexpected)

theorem expectName_eq {α : Type} {next : String → Parse α} {a : α}
    (run : (expectName >>= next).run cursor = .ok (a, cursor')) :
    ∃ name, head? cursor = some (.name name) ∧
      (next name).run (passed cursor) = .ok (a, cursor') := by
  obtain ⟨name, reached, ran, rest⟩ := ok_of_run_bind run
  have known := peek_eq ran
  split at known
  · next same =>
      cases discard_eq known
      exact ⟨_, same, rest⟩
  · exact absurd known (not_ok_of_fails fails_unexpected)

theorem boundName_eq {α : Type} {next : String → Parse α} {a : α}
    (run : (boundName >>= next).run cursor = .ok (a, cursor')) :
    ∃ name, head? cursor = some (.name name) ∧ name ∉ reservedNames ∧
      (next name).run (passed cursor) = .ok (a, cursor') := by
  obtain ⟨name, reached, ran, rest⟩ := ok_of_run_bind run
  obtain ⟨found, ahead, naming⟩ := expectName_eq ran
  obtain ⟨free, named⟩ := else_eq (fails_bind fun _ => (fails_failAt _ _).bind _) naming
  cases named
  exact ⟨_, ahead, by simpa using free, rest⟩

theorem parse_eq_ok_iff {template : String} {code : List Char} {page : Page} :
    Page.parse template code = .ok page ↔ page.template = template ∧
      ∃ stop, (statements ((Token.ofPage code).length + 1) levelLimit []).run
        { ahead := Token.ofPage code } = .ok (page.body, stop) := by
  unfold Page.parse
  cases ran : (statements ((Token.ofPage code).length + 1) levelLimit []).run
      { ahead := Token.ofPage code } with
  | error error => simp [ran, bind, Except.bind]
  | ok reached =>
      obtain ⟨body, stop⟩ := reached
      simp only [ran, bind, Except.bind, pure, Except.pure, Except.ok.injEq, Prod.mk.injEq]
      constructor
      · rintro rfl
        exact ⟨rfl, stop, rfl, rfl⟩
      · rintro ⟨rfl, _, rfl, -⟩
        rfl

theorem statements_none {n levels : Nat} {ends : List String} {body : List Statement}
    (ahead : head? cursor = none)
    (run : (statements (n + 1) levels ends).run cursor = .ok (body, cursor')) :
    body = [] ∧ cursor' = passed cursor := by
  have known := next_eq run
  rw [ahead] at known
  cases known
  exact ⟨rfl, rfl⟩

theorem statements_text {n levels : Nat} {ends : List String} {body : List Statement} {s : String}
    (ahead : head? cursor = some (.text s))
    (run : (statements (n + 1) levels ends).run cursor = .ok (body, cursor')) :
    ∃ rest, body = .text s :: rest ∧
      (statements n levels ends).run (passed cursor) = .ok (rest, cursor') := by
  have known := next_eq run
  rw [ahead] at known
  obtain ⟨rest, reached, ran, last⟩ := ok_of_run_bind known
  cases last
  exact ⟨rest, rfl, ran⟩

theorem statements_echo {n levels : Nat} {ends : List String} {body : List Statement}
    (ahead : head? cursor = some .openEcho)
    (run : (statements (n + 1) levels ends).run cursor = .ok (body, cursor')) :
    ∃ value reached rest inner, levels = inner + 1 ∧
      (expressionWithin inner).run (passed cursor) = .ok (value, reached) ∧
      head? reached = some .closeEcho ∧ body = .echo value :: rest ∧
      (statements n levels ends).run (passed reached) = .ok (rest, cursor') := by
  have known := next_eq run
  rw [ahead] at known
  obtain ⟨value, reached, ran, closing⟩ := ok_of_run_bind known
  obtain ⟨inner, deeper, ran⟩ := run_expression ran
  obtain ⟨closed, behind⟩ := closeEcho_eq closing
  obtain ⟨rest, stop, reading, last⟩ := ok_of_run_bind behind
  cases last
  exact ⟨value, reached, rest, inner, deeper, ran, closed, rfl, reading⟩

theorem statements_statement {n levels : Nat} {ends : List String} {body : List Statement}
    {word : String} (ahead : head? cursor = some .openStatement)
    (atWord : head? (passed cursor) = some (.name word))
    (run : (statements (n + 1) levels ends).run cursor = .ok (body, cursor')) :
    word ∈ ends ∧ body = [] ∧ cursor' = passed cursor ∨
      word ∉ ends ∧ ∃ inner first reached rest,
        (statement inner (statements n inner)).run (passed cursor) = .ok (first, reached) ∧
          head? reached = some .closeStatement ∧ body = first :: rest ∧
          (statements n levels ends).run (passed reached) = .ok (rest, cursor') := by
  have known := next_eq run
  rw [ahead] at known
  obtain ⟨found, reached, ran, rest⟩ := ok_of_run_bind known
  have words := peek_eq ran
  rw [atWord] at words
  cases words
  rcases ite_eq rest with ⟨isEnd, stops⟩ | ⟨goesOn, statement⟩
  · cases stops
    exact .inl ⟨by simpa using isEnd, rfl, rfl⟩
  · refine .inr ⟨by simpa using goesOn, ?_⟩
    cases levels with
    | zero => exact absurd statement (not_ok_of_fails (fails_tooDeep.bind _))
    | succ inner =>
        obtain ⟨first, afterFirst, reading, closing⟩ := ok_of_run_bind statement
        obtain ⟨closed, behind⟩ := closeStatement_eq closing
        obtain ⟨others, stop, ran', last⟩ := ok_of_run_bind behind
        cases last
        exact ⟨inner, first, afterFirst, others, reading, closed, rfl, ran'⟩

theorem statement_set {levels : Nat} {body : Body} {first : Statement}
    (ahead : head? cursor = some (.name "set"))
    (run : (statement levels body).run cursor = .ok (first, cursor')) :
    ∃ target value inner start, first = .set target value ∧ target ∉ reservedNames ∧
      cursor.ahead.map Lexeme.token =
        .name "set" :: .name target :: .sign "=" :: start.ahead.map Lexeme.token ∧
      (expressionWithin inner).run start = .ok (value, cursor') := by
  obtain ⟨line, -, naming⟩ := look_eq looks_nextLine run
  obtain ⟨keyword, named, rest⟩ := expectName_eq naming
  cases named.symm.trans ahead
  obtain ⟨target, bound, free, binding⟩ := boundName_eq rest
  obtain ⟨equals, assigning⟩ := expectSign_eq binding
  obtain ⟨value, reached, ran, last⟩ := ok_of_run_bind assigning
  obtain ⟨inner, -, ran⟩ := run_expression ran
  cases last
  refine ⟨target, value, inner, _, rfl, free, ?_, ran⟩
  rw [ahead_of_head ahead, ahead_of_head bound, ahead_of_head equals]

theorem statement_for {levels : Nat} {body : Body} {first : Statement}
    (ahead : head? cursor = some (.name "for"))
    (run : (statement levels body).run cursor = .ok (first, cursor')) :
    (forEach levels body).run (passed cursor) = .ok (first, cursor') := by
  obtain ⟨line, -, naming⟩ := look_eq looks_nextLine run
  obtain ⟨keyword, named, rest⟩ := expectName_eq naming
  cases named.symm.trans ahead
  exact rest

theorem statement_if {levels : Nat} {body : Body} {first : Statement}
    (ahead : head? cursor = some (.name "if"))
    (run : (statement levels body).run cursor = .ok (first, cursor')) :
    ∃ n, (branches levels body n).run (passed cursor) = .ok (first, cursor') := by
  obtain ⟨line, -, naming⟩ := look_eq looks_nextLine run
  obtain ⟨keyword, named, rest⟩ := expectName_eq naming
  cases named.symm.trans ahead
  obtain ⟨n, -, branching⟩ := look_eq looks_bound rest
  exact ⟨n, branching⟩

/-- What a `for` over a call reads. A variable called `in` would be taken for the word. -/
theorem forEach_eq {levels : Nat} {body : Body} {first : Statement} {item function : String}
    {inner : List Token} (noTest : function ≠ "is")
    (ahead : cursor.ahead.map Lexeme.token = .name item :: .name "in" :: .name function ::
      (inner ++ .closeStatement :: rest))
    (run : (forEach levels body).run cursor = .ok (first, cursor')) :
    item ∉ reservedNames ∧ ∃ source start reached each after,
      start.ahead.map Lexeme.token = .name function :: (inner ++ .closeStatement :: rest) ∧
        (expressionWithin levels).run start = .ok (source, reached) ∧
        head? reached = some .closeStatement ∧
        (body ["endfor", "else"]).run (passed reached) = .ok (each, after) ∧
        (head? after ≠ some (.name "else") →
          first = .forEach (some item) source each [] ∧ cursor' = passed after) := by
  obtain ⟨named, atIn⟩ := head?_eq ahead
  obtain ⟨word, atSource⟩ := head?_eq atIn
  obtain ⟨call, -⟩ := head?_eq atSource
  obtain ⟨name?, behind, ran, rest⟩ := ok_of_run_bind run
  have naming := peek_eq ran
  rcases ite_eq naming with ⟨isIn, unnamed⟩ | ⟨-, bound⟩
  · cases unnamed
    have atWord : head? cursor = some (.name "in") := isName_iff.mp isIn
    have inSource := passed_of_skipName atWord rest
    obtain ⟨source, reached, ran', closing⟩ := ok_of_run_bind inSource
    obtain ⟨closed, -⟩ := closeStatement_eq closing
    have inert : Inert (head? (passed (passed cursor))) := by
      rw [call]
      exact ⟨by simp, by simpa using noTest⟩
    obtain ⟨-, rfl⟩ := expressionWithin_name word (by simp) inert ran'
    rw [call] at closed
    cases closed
  · obtain ⟨name, found, free, named'⟩ := boundName_eq bound
    cases named.symm.trans found
    cases named'
    have inSource := passed_of_skipName word rest
    obtain ⟨source, reached, ran', closing⟩ := ok_of_run_bind inSource
    obtain ⟨closed, inBody⟩ := closeStatement_eq closing
    obtain ⟨each, after, running, ending⟩ := ok_of_run_bind inBody
    refine ⟨free, source, _, reached, each, after, atSource, ran', closed, running,
      fun noElse => ?_⟩
    obtain ⟨_, stop, discarded, last⟩ := ok_of_run_bind (eq_of_skipName noElse ending)
    cases passed_of_discard discarded
    cases last
    exact ⟨rfl, rfl⟩

theorem statements_setTag {n levels : Nat} {ends : List String} {body : List Statement}
    {function : PageFunction} {args : List Token} (noEnd : "set" ∉ ends)
    (ahead : cursor.ahead.map Lexeme.token = Token.setTag function args ++ rest)
    (run : (statements n levels ends).run cursor = .ok (body, cursor')) :
    ∃ m inner value start reached others, n = m + 1 ∧ body = .set "blade_loop" value :: others ∧
      start.ahead.map Lexeme.token =
        .name function.name :: .sign "(" :: (args ++ .sign ")" :: .closeStatement :: rest) ∧
      (expressionWithin inner).run start = .ok (value, reached) ∧
      (statements m levels ends).run (passed reached) = .ok (others, cursor') := by
  cases n with
  | zero => exact absurd run (not_ok_of_fails fails_unexpected)
  | succ m =>
      obtain ⟨opens, atSet⟩ := head?_eq ahead
      obtain ⟨word, -⟩ := head?_eq atSet
      rcases statements_statement opens word run with
        ⟨isEnd, -⟩ | ⟨-, inner, first, reached, others, ran, closed, rfl, reading⟩
      · exact absurd isEnd noEnd
      · obtain ⟨target, value, within, start, rfl, -, setting, ran'⟩ := statement_set word ran
        have same := setting.symm.trans atSet
        obtain ⟨-, same⟩ := List.cons.inj same
        obtain ⟨targeted, same⟩ := List.cons.inj same
        obtain ⟨-, atCall⟩ := List.cons.inj same
        cases targeted
        refine ⟨m, within, value, start, reached, others, rfl, rfl, ?_, ran', reading⟩
        simpa using atCall

end Parse

/-! ### Pages in which loops and conditionals nest -/

inductive OpenTag where
  | loop (kind : LoopKind)
  | condition

/-- The tokens of the rest of a page inside some open blocks, innermost first. What stands behind a
tag matters only if the inside of the tag can be read. -/
inductive Spells (hidden : String → Prop) : List OpenTag → List Token → Prop
  | done : Spells hidden [] []
  | text {opened : List OpenTag} {rest : List Token} (s : String)
    (spells : Spells hidden opened rest) : Spells hidden opened (.text s :: rest)
  | unclosed {opened : List OpenTag} {inner : List Token} (inside : Token.Inside inner) :
    Spells hidden opened (.openEcho :: inner)
  | echo {opened : List OpenTag} {inner rest : List Token} (inside : Token.Inside inner)
    (shows : Parse.Expressible inner → Token.Show hidden inner)
    (spells : Parse.Expressible inner → Spells hidden opened rest) :
    Spells hidden opened (.openEcho :: (inner ++ .closeEcho :: rest))
  | loop {opened : List OpenTag} {inner sources rest : List Token} (kind : LoopKind) {item : String}
    (visible : ¬ Token.IsHidden item) (inside : Token.Inside inner)
    (pushes : Parse.Expressible (.name PageFunction.loopPush.name :: inner) →
      inner = .sign "(" :: (sources ++ [.literal kind.name, .sign ")"]))
    (level : Token.levels? 0 sources = some 0) (separated : sources.getLast? = some (.sign ","))
    (shows : Token.Show hidden sources) (spells : Spells hidden (.loop kind :: opened) rest) :
    Spells hidden opened (.openStatement :: .name "for" :: .name item :: .name "in" ::
      .name PageFunction.loopPush.name :: (inner ++ .closeStatement ::
        (Token.setTag .loopNext [.name item, .sign ",", .literal kind.name] ++ rest)))
  | endLoop {opened : List OpenTag} {rest : List Token} (kind : LoopKind)
    (spells : Spells hidden opened rest) :
    Spells hidden (.loop kind :: opened) (.openStatement :: .name "endfor" :: .closeStatement ::
      (Token.setTag .loopPop [.literal kind.name] ++ rest))
  | condition {opened : List OpenTag} {inner rest : List Token} (inside : Token.Inside inner)
    (shows : Token.Show hidden inner) (spells : Spells hidden (.condition :: opened) rest) :
    Spells hidden opened (.openStatement :: .name "if" :: (inner ++ .closeStatement :: rest))
  | alternative {opened : List OpenTag} {inner rest : List Token} (inside : Token.Inside inner)
    (shows : Token.Show hidden inner) (spells : Spells hidden (.condition :: opened) rest) :
    Spells hidden (.condition :: opened)
      (.openStatement :: .name "elif" :: (inner ++ .closeStatement :: rest))
  | endCondition {opened : List OpenTag} {rest : List Token} (spells : Spells hidden opened rest) :
    Spells hidden (.condition :: opened)
      (.openStatement :: .name "endif" :: .closeStatement :: rest)

namespace Spells

open Parse

def ends : List OpenTag → List String
  | [] => []
  | .loop _ :: _ => ["endfor", "else"]
  | .condition :: _ => ["endif", "else", "elif"]

theorem not_mem_ends {word : String} (h : word ∈ ["if", "for", "set"]) (opened : List OpenTag) :
    word ∉ ends opened := by
  simp only [List.mem_cons, List.not_mem_nil, or_false] at h
  cases opened with
  | nil => simp [ends]
  | cons tag outer => rcases h with rfl | rfl | rfl <;> cases tag <;> simp [ends]

/-- What stands behind the part of a page that has been read inside some open blocks. -/
inductive Behind (hidden : String → Prop) : List OpenTag → List Token → Prop
  | done : Behind hidden [] []
  | endLoop {opened : List OpenTag} {rest : List Token} (kind : LoopKind)
    (spells : Spells hidden opened rest) :
    Behind hidden (.loop kind :: opened) (.name "endfor" :: .closeStatement ::
      (Token.setTag .loopPop [.literal kind.name] ++ rest))
  | endCondition {opened : List OpenTag} {rest : List Token} (spells : Spells hidden opened rest) :
    Behind hidden (.condition :: opened) (.name "endif" :: .closeStatement :: rest)
  | alternative {opened : List OpenTag} {inner rest : List Token} (inside : Token.Inside inner)
    (shows : Token.Show hidden inner) (spells : Spells hidden (.condition :: opened) rest) :
    Behind hidden (.condition :: opened) (.name "elif" :: (inner ++ .closeStatement :: rest))

/-- What it means that statements are read as they should be, given a bound on the steps. -/
def ReadsOutlines (hidden : String → Prop) (n : Nat) : Prop :=
  ∀ levels opened cursor body cursor', Spells hidden opened (cursor.ahead.map Lexeme.token) →
    (statements n levels (ends opened)).run cursor = .ok (body, cursor') →
      (∃ outline, Outline.Codes hidden outline body) ∧
      Behind hidden opened (cursor'.ahead.map Lexeme.token)

theorem branches_outlined {levels m : Nat} (reads : ReadsOutlines hidden m) (n : Nat)
    {opened : List OpenTag} {inner rest : List Token} (inside : Token.Inside inner)
    (shows : Token.Show hidden inner) (spells : Spells hidden (.condition :: opened) rest)
    {cursor cursor' : Cursor} {first : Statement}
    (ahead : cursor.ahead.map Lexeme.token = inner ++ .closeStatement :: rest)
    (run : (branches levels (statements m levels) n).run cursor = .ok (first, cursor')) :
    ∃ condition body otherwise, first = .conditional condition body otherwise ∧
      condition.Avoids hidden ∧ (∃ outline, Outline.Codes hidden outline body) ∧
      (∃ outline, Outline.Codes hidden outline otherwise) ∧
      ∃ behind, cursor'.ahead.map Lexeme.token = .closeStatement :: behind ∧
        Spells hidden opened behind := by
  induction n generalizing cursor inner rest first with
  | zero => exact absurd run (not_ok_of_fails fails_unexpected)
  | succ n ih =>
      obtain ⟨condition, atEnd, ran, closing⟩ := ok_of_run_bind run
      obtain ⟨closed, inBody⟩ := closeStatement_eq closing
      obtain ⟨atBody, -, avoids⟩ :=
        expressionWithin_closed hidden inside Token.not_isInner_closeStatement ahead ran closed
      obtain ⟨body, after, running, ending⟩ := ok_of_run_bind inBody
      rw [← atBody] at spells
      obtain ⟨codesBody, behind⟩ := reads levels _ _ body after spells running
      have known := next_eq ending
      generalize tokens : after.ahead.map Lexeme.token = behindBody at behind
      cases behind with
      | endCondition spells =>
          obtain ⟨word, atClose⟩ := head?_eq tokens
          rw [word] at known
          cases known
          exact ⟨condition, body, [], rfl, avoids shows, codesBody, ⟨_, .done⟩, _, atClose, spells⟩
      | alternative inside shows' spells =>
          obtain ⟨word, atCondition⟩ := head?_eq tokens
          rw [word] at known
          obtain ⟨other, stop, branching, last⟩ := ok_of_run_bind known
          cases last
          obtain ⟨condition', body', otherwise, rfl, avoids', ⟨_, codes⟩,
            ⟨_, codesOther⟩, behind⟩ :=
            ih inside shows' spells atCondition branching
          exact ⟨condition, body, _, rfl, avoids shows, codesBody,
            ⟨_, .conditional avoids' codes codesOther .done⟩, behind⟩

theorem word_name (function : PageFunction) (line : Nat) :
    word line function.name = .named line function.name := by
  cases function <;> rfl

theorem word_free {name : String} (free : name ∉ reservedNames) (line : Nat) :
    word line name = .named line name := by
  unfold word
  split <;> first | rfl | exact absurd (by decide) free

theorem inert_closeStatement : Inert (some .closeStatement) :=
  ⟨by simp, by simp⟩

theorem loopBody_outlined {n levels : Nat} {opened : List OpenTag} {kind : LoopKind} {item : String}
    {rest : List Token} (reads : ∀ m < n, ReadsOutlines hidden m) (free : item ∉ reservedNames)
    (spells : Spells hidden (.loop kind :: opened) rest) {cursor cursor' : Cursor}
    {body : List Statement}
    (ahead : cursor.ahead.map Lexeme.token =
      Token.setTag .loopNext [.name item, .sign ",", .literal kind.name] ++ rest)
    (run : (statements n levels ["endfor", "else"]).run cursor = .ok (body, cursor')) :
    ∃ line itemLine kindLine others, body =
        .set "blade_loop" (.call line PageFunction.loopNext.name
          [.named itemLine item, .constant kindLine (.ofString kind.name)]) :: others ∧
      (∃ outline, Outline.Codes hidden outline others) ∧
      Behind hidden (.loop kind :: opened) (cursor'.ahead.map Lexeme.token) := by
  obtain ⟨m, inner, value, start, reached, others, rfl, rfl, atCall, ran, reading⟩ :=
    statements_setTag (by simp) ahead run
  obtain ⟨atEnd, line, itemLine, kindLine, rfl⟩ := expressionWithin_itemCall (word_name .loopNext)
    (by decide) inert_closeStatement atCall ran
  obtain ⟨-, atRest⟩ := head?_eq atEnd
  rw [← atRest] at spells
  obtain ⟨codes, behind⟩ := reads m (Nat.lt_succ_self m) levels _ _ others cursor' spells reading
  exact ⟨line, itemLine, kindLine, others, by rw [word_free free], codes, behind⟩

theorem loopEnd_outlined {n levels : Nat} {opened : List OpenTag} {kind : LoopKind}
    {rest : List Token} (reads : ∀ m < n, ReadsOutlines hidden m)
    (spells : Spells hidden opened rest) {cursor cursor' : Cursor} {body : List Statement}
    (ahead : cursor.ahead.map Lexeme.token = Token.setTag .loopPop [.literal kind.name] ++ rest)
    (run : (statements n levels (ends opened)).run cursor = .ok (body, cursor')) :
    ∃ line kindLine others, body =
        .set "blade_loop" (.call line PageFunction.loopPop.name
          [.constant kindLine (.ofString kind.name)]) :: others ∧
      (∃ outline, Outline.Codes hidden outline others) ∧
      Behind hidden opened (cursor'.ahead.map Lexeme.token) := by
  obtain ⟨m, inner, value, start, reached, others, rfl, rfl, atCall, ran, reading⟩ :=
    statements_setTag (not_mem_ends (by simp) opened) ahead run
  have noSources : start.ahead.map Lexeme.token = .name PageFunction.loopPop.name :: .sign "(" ::
      ([] ++ .literal kind.name :: .sign ")" :: .closeStatement :: rest) := atCall
  obtain ⟨atEnd, line, sources, kindLine, rfl, alone, -⟩ := expressionWithin_literalCall
    (word_name .loopPop) (by decide) inert_closeStatement hidden rfl (.inl rfl) noSources ran
  cases alone rfl
  obtain ⟨-, atRest⟩ := head?_eq atEnd
  rw [← atRest] at spells
  obtain ⟨codes, behind⟩ := reads m (Nat.lt_succ_self m) levels _ _ others cursor' spells reading
  exact ⟨line, kindLine, others, rfl, codes, behind⟩

theorem readsOutlines (n : Nat) : ReadsOutlines hidden n := by
  induction n using Nat.strongRecOn with
  | ind n ih =>
  intro levels opened cursor body cursor' spells run
  cases n with
  | zero => exact absurd run (not_ok_of_fails fails_unexpected)
  | succ n =>
      have readsRest : ReadsOutlines hidden n := ih n (Nat.lt_succ_self n)
      generalize tokens : cursor.ahead.map Lexeme.token = ahead at spells
      cases spells with
      | done =>
          have atEnd : head? cursor = none := by
            unfold head?
            rw [← List.head?_map, tokens]
            rfl
          obtain ⟨rfl, rfl⟩ := statements_none atEnd run
          refine ⟨⟨_, .done⟩, ?_⟩
          have nothing : cursor.ahead = [] := List.map_eq_nil_iff.mp tokens
          have still : passed cursor = cursor := by
            unfold passed
            rw [nothing]
          rw [still, tokens]
          exact .done
      | text s spells =>
          obtain ⟨first, behind⟩ := head?_eq tokens
          obtain ⟨rest, rfl, reading⟩ := statements_text first run
          rw [← behind] at spells
          obtain ⟨⟨_, codes⟩, stop⟩ := readsRest levels opened _ rest cursor' spells reading
          exact ⟨⟨_, .text s codes⟩, stop⟩
      | unclosed inside =>
          obtain ⟨first, behind⟩ := head?_eq tokens
          obtain ⟨value, reached, rest, inner, -, ran, closed, -, -⟩ := statements_echo first run
          exact absurd closed
            (expressionWithin_unclosed inside Token.not_isInner_closeEcho behind ran)
      | echo inside shows spells =>
          obtain ⟨first, behind⟩ := head?_eq tokens
          obtain ⟨value, reached, rest, inner, -, ran, closed, rfl, reading⟩ :=
            statements_echo first run
          obtain ⟨atRest, expressible, avoids⟩ :=
            expressionWithin_closed hidden inside Token.not_isInner_closeEcho behind ran closed
          have spells := spells expressible
          rw [← atRest] at spells
          obtain ⟨⟨_, codes⟩, stop⟩ := readsRest levels opened _ rest cursor' spells reading
          exact ⟨⟨_, .echo (avoids (shows expressible)) codes⟩, stop⟩
      | @loop _ called sources behindLoop kind item visible inside pushes level separated
          shows spells =>
          obtain ⟨first, behind⟩ := head?_eq tokens
          obtain ⟨word, atItem⟩ := head?_eq behind
          rcases statements_statement first word run with
            ⟨isEnd, -⟩ | ⟨-, inner, _, reached, rest, ran, closed, rfl, reading⟩
          · exact absurd isEnd (not_mem_ends (by simp) opened)
          obtain ⟨free, source, start, atEnd, each, after, atCall, pushing, closedFor,
            body, ending⟩ :=
            forEach_eq (by decide) atItem (statement_for word ran)
          have insideCall : Token.Inside (.name PageFunction.loopPush.name :: called) :=
            List.forall_mem_cons.mpr ⟨trivial, inside⟩
          obtain ⟨atBody, expressible, -⟩ := expressionWithin_closed hidden insideCall
            Token.not_isInner_closeStatement atCall pushing closedFor
          cases pushes expressible
          have call : start.ahead.map Lexeme.token = .name PageFunction.loopPush.name ::
              .sign "(" ::
              (sources ++ .literal kind.name :: .sign ")" :: .closeStatement ::
                (Token.setTag .loopNext [.name item, .sign ",", .literal kind.name] ++
                  behindLoop)) := by
            rw [atCall]
            simp
          obtain ⟨-, line, sources, kindLine, rfl, -, avoids⟩ := expressionWithin_literalCall
            (word_name .loopPush)
            (by decide) inert_closeStatement hidden level (.inr separated) call
            pushing
          obtain ⟨_, _, _, others, rfl, ⟨_, codesBody⟩, behindBody⟩ :=
            loopBody_outlined (fun m hm => ih m (Nat.lt_succ_of_lt hm)) free spells atBody body
          generalize tokens : after.ahead.map Lexeme.token = rest' at behindBody
          cases behindBody with
          | endLoop _ spellsRest =>
              obtain ⟨endWord, atClose⟩ := head?_eq tokens
              obtain ⟨rfl, rfl⟩ := ending (by simp [endWord])
              obtain ⟨-, atPop⟩ := head?_eq atClose
              obtain ⟨_, _, others', rfl, ⟨_, codesRest⟩, stop⟩ :=
                loopEnd_outlined (fun m hm => ih m (Nat.lt_succ_of_lt hm)) spellsRest atPop reading
              exact ⟨⟨_, .loop kind visible (avoids shows) codesBody codesRest⟩, stop⟩
      | endLoop kind spells =>
          obtain ⟨first, behind⟩ := head?_eq tokens
          obtain ⟨word, -⟩ := head?_eq behind
          rcases statements_statement first word run with ⟨-, rfl, rfl⟩ | ⟨noEnd, -⟩
          · refine ⟨⟨_, .done⟩, ?_⟩
            rw [behind]
            exact .endLoop kind spells
          · exact absurd (by simp [ends]) noEnd
      | condition inside shows spells =>
          obtain ⟨first, behind⟩ := head?_eq tokens
          obtain ⟨word, atCondition⟩ := head?_eq behind
          rcases statements_statement first word run with
            ⟨isEnd, -⟩ | ⟨-, inner, _, reached, rest, ran, closed, rfl, reading⟩
          · exact absurd isEnd (not_mem_ends (by simp) opened)
          · obtain ⟨steps, branching⟩ := statement_if word ran
            obtain ⟨condition, positive, otherwise, rfl, avoids, ⟨_, codes⟩, ⟨_, codesOther⟩, more,
              atMore, spells⟩ := branches_outlined readsRest steps inside shows spells
                atCondition branching
            obtain ⟨-, atRest⟩ := head?_eq atMore
            rw [← atRest] at spells
            obtain ⟨⟨_, codesRest⟩, stop⟩ := readsRest levels opened _ rest cursor' spells reading
            exact ⟨⟨_, .conditional avoids codes codesOther codesRest⟩, stop⟩
      | alternative inside shows spells =>
          obtain ⟨first, behind⟩ := head?_eq tokens
          obtain ⟨word, -⟩ := head?_eq behind
          rcases statements_statement first word run with ⟨-, rfl, rfl⟩ | ⟨noEnd, -⟩
          · refine ⟨⟨_, .done⟩, ?_⟩
            rw [behind]
            exact .alternative inside shows spells
          · exact absurd (by simp [ends]) noEnd
      | endCondition spells =>
          obtain ⟨first, behind⟩ := head?_eq tokens
          obtain ⟨word, -⟩ := head?_eq behind
          rcases statements_statement first word run with ⟨-, rfl, rfl⟩ | ⟨noEnd, -⟩
          · refine ⟨⟨_, .done⟩, ?_⟩
            rw [behind]
            exact .endCondition spells
          · exact absurd (by simp [ends]) noEnd

/-- A page whose tokens nest as they should codes an outline, if it can be read. -/
theorem codes_of_parse {template : String} {code : List Char} {page : Page}
    (spells : Spells hidden [] ((Token.ofPage code).map Lexeme.token))
    (parsed : Page.parse template code = .ok page) :
    ∃ outline, Outline.Codes hidden outline page.body := by
  obtain ⟨-, stop, ran⟩ := parse_eq_ok_iff.mp parsed
  exact (readsOutlines _ levelLimit [] _ _ _ spells ran).1

end Spells

end ThemeTemplates
