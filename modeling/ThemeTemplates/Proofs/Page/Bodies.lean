import ThemeTemplates.Proofs.Page.Placement
import ThemeTemplates.Proofs.Page.Shift
import ThemeTemplates.Proofs.Page.Tagless
import ThemeTemplates.Proofs.Page.Tags

/-!
# Reading statements one after the other

What is read of the rest of a page gives what is read of the page with one more statement in front.
An echo that makes up a page by itself is read alike between texts.
-/

namespace ThemeTemplates.Parse

open Evaluation (texts)

variable {cursor cursor' : Cursor} {n levels : Nat} {ends : List String} {rest : List Statement}

theorem run_next_of_head {token : Token} (ahead : head? cursor = some token)
    (noFlaw : ∀ flaw, token ≠ .flaw flaw) : next.run cursor = .ok (some token, passed cursor) := by
  rw [run_next, run_peek_of_head ahead noFlaw]

theorem run_next_of_end (ahead : cursor.ahead = []) : next.run cursor = .ok (none, cursor) := by
  obtain ⟨_, line, blocks⟩ := cursor
  cases ahead
  rfl

theorem run_statements_end (ahead : cursor.ahead = []) :
    (statements (n + 1) levels ends).run cursor = .ok ([], cursor) :=
  run_bind_of_ok (run_next_of_end ahead) _

theorem run_statements_text {s : String} (ahead : head? cursor = some (.text s))
    (behind : (statements n levels ends).run (passed cursor) = .ok (rest, cursor')) :
    (statements (n + 1) levels ends).run cursor = .ok (.text s :: rest, cursor') := by
  refine (run_bind_of_ok (run_next_of_head ahead (by simp)) _).trans ?_
  exact run_bind_of_ok behind _

theorem run_expectCloseEcho (ahead : head? cursor = some .closeEcho) :
    expectCloseEcho.run cursor = .ok ((), passed cursor) := by
  have looked := run_peek_of_head ahead (by simp)
  exact (run_bind_of_ok looked _).trans (run_discard_next_of_head ahead (by simp))

theorem run_statements_echo {value : Expression} {reached : Cursor}
    (ahead : head? cursor = some .openEcho)
    (expressed : (expression levels).run (passed cursor) = .ok (value, reached))
    (closed : head? reached = some .closeEcho)
    (behind : (statements n levels ends).run (passed reached) = .ok (rest, cursor')) :
    (statements (n + 1) levels ends).run cursor = .ok (.echo value :: rest, cursor') := by
  refine (run_bind_of_ok (run_next_of_head ahead (by simp)) _).trans ?_
  refine (run_bind_of_ok expressed _).trans ?_
  refine (run_bind_of_ok (run_expectCloseEcho closed) _).trans ?_
  exact run_bind_of_ok behind _

/-! ### Whole pages -/

/-- Some tokens up to the end of a page are read as statements, wherever they stand. -/
def ReadAs (tokens : List Lexeme) (body : List Statement) : Prop :=
  ∀ cursor n, cursor.ahead = tokens → tokens.length < n →
    ∃ stop, (statements n levelLimit []).run cursor = .ok (body, stop)

theorem ReadAs.parse {code : List Char} {body : List Statement}
    (h : ReadAs (Token.ofPage code) body) (template : String) :
    Page.parse template code = .ok { template, body } :=
  parse_eq_ok_iff.mpr ⟨rfl, h _ _ rfl (Nat.lt_succ_self _)⟩

theorem ReadAs.nil : ReadAs [] [] := by
  intro cursor n ahead short
  cases n with
  | zero => cases short
  | succ n => exact ⟨cursor, run_statements_end ahead⟩

theorem ReadAs.text {tokens : List Lexeme} (h : ReadAs tokens rest) (text : List Char)
    (line : Nat) :
    ReadAs (Token.ofPieces (Piece.whole text line) ++ tokens) (texts text ++ rest) := by
  cases text with
  | nil => exact h
  | cons c text =>
      intro cursor n ahead short
      obtain ⟨_, _, blocks⟩ := cursor
      cases ahead
      cases n with
      | zero => cases short
      | succ n =>
          obtain ⟨stop, behind⟩ := h ⟨tokens, shiftedLine 0 line, blocks⟩ n rfl
            (Nat.lt_of_succ_lt_succ short)
          exact ⟨stop, run_statements_text rfl behind⟩

theorem ofPieces_echo (inside : List Char) (line : Nat) : ∃ inner lines,
    Token.ofPieces [.echo inside line true] =
      ⟨.openEcho, shiftedLine 0 line⟩ :: (inner ++ [⟨.closeEcho, lines⟩]) ∧
    inner.map Lexeme.token = Token.tokensOf inside := by
  refine ⟨(Token.inTag inside.length line line inside).map (Lexeme.relabel (shiftedLine 0)),
    shiftedLine 0 (line + lineBreaks inside), ?_, ?_⟩
  · simp [Token.ofPieces, Token.ofPiece, Token.ofPiece.tag, Lexeme.relabel]
  · rw [List.map_map]
    exact Token.map_token_inTag _ _ _ _

/-- An echo that makes up a page is read alike on other lines and in front of other statements. -/
theorem ReadAs.echo {inside : List Char} {line : Nat} {body : List Statement} {stop : Cursor}
    (alone : (statements (n + 1) levelLimit []).run
      { ahead := Token.ofPieces [.echo inside line true] } = .ok (body, stop))
    {tokens : List Lexeme} (h : ReadAs tokens rest) (f : Nat → Nat) :
    ∃ value, body = [.echo value] ∧
      ReadAs ((Token.ofPieces [.echo inside line true]).map (Lexeme.relabel f) ++ tokens)
        (.echo (value.relabel f) :: rest) := by
  obtain ⟨inner, closeLine, echoTokens, inTag⟩ := ofPieces_echo inside line
  rw [echoTokens] at alone ⊢
  set start : Cursor := ⟨inner ++ [⟨.closeEcho, closeLine⟩], shiftedLine 0 line, []⟩
  obtain ⟨value, reached, others, levels, deep, ran, closed, rfl, reading⟩ :=
    statements_echo (by rfl) alone
  have ran : (expressionWithin levels).run start = .ok (value, reached) := ran
  have ahead : start.ahead.map Lexeme.token = Token.tokensOf inside ++ [.closeEcho] := by
    simp [start, inTag]
  obtain ⟨nothing, -, -⟩ := expressionWithin_closed (fun _ => False) (Token.inside_tokensOf inside)
    Token.not_isInner_closeEcho ahead ran closed
  have atEnd : (passed reached).ahead = [] := List.map_eq_nil_iff.mp nothing
  have alone' : others = [] := by
    cases n with
    | zero => exact absurd reading (not_ok_of_fails fails_unexpected)
    | succ n =>
        have none : head? (passed reached) = none := by simp [head?, atEnd]
        exact (statements_none none reading).1
  refine ⟨value, by rw [alone'], ?_⟩
  rintro ⟨_, cursorLine, blocks⟩ m rfl short
  cases m with
  | zero => cases short
  | succ m =>
      have beside : Beside f tokens start
          ⟨start.ahead.map (Lexeme.relabel f) ++ tokens, f (shiftedLine 0 line), blocks⟩ :=
        ⟨by simp [start], rfl, rfl⟩
      obtain ⟨reached', ran', besideEnd, -⟩ :=
        expressionWithin_parallel levels (start.ahead.length + 1)
        start _ (Nat.lt_succ_self _) beside value reached ran
      have expressed : (expression levelLimit).run
          ⟨start.ahead.map (Lexeme.relabel f) ++ tokens, f (shiftedLine 0 line), blocks⟩ =
            .ok (value.relabel f, reached') := by
        rw [deep]
        exact ran'
      have shorter : tokens.length < m := by
        simp only [List.length_append, List.length_map, List.length_cons] at short
        omega
      obtain ⟨stop', rest'⟩ := h (passed reached') m (besideEnd.passed_ahead atEnd) shorter
      exact ⟨stop', run_statements_echo rfl expressed (besideEnd.head.trans closed) rest'⟩

end ThemeTemplates.Parse
