import ThemeTemplates.Proofs.Directive.Seal
import ThemeTemplates.Proofs.Page.Bodies
import ThemeTemplates.Proofs.Render.Root

/-!
# Directives between texts

An inline directive emits one echo, and a comment if its arguments span lines. Text beside it stays
as it is and leaves the echo alone, but for a brace right in front of it.
-/

namespace ThemeTemplates

open Piece Parse

/-! ### Pieces -/

namespace Segment

theorem trimming_lineBreaks (n : Nat) :
    Trimming.of '#' (List.replicate n '\n') = ⟨false, List.replicate n '\n', false⟩ := by
  cases n with
  | zero => rfl
  | succ n =>
      have opening : splitOpeningSign (List.replicate (n + 1) '\n') =
          (false, List.replicate (n + 1) '\n') :=
        splitOpeningSign_cons (by decide) _
      unfold Trimming.of
      rw [opening]
      simp only [List.reverse_replicate]
      rfl

theorem piecesFrom_padding (args emitted : List Char) (line : Nat) (rest : List Char) :
    ∃ line', piecesFrom line false (padding args emitted ++ rest) =
      piecesFrom line' false rest := by
  unfold padding
  cases missing : lineBreaks args - lineBreaks emitted with
  | zero => exact ⟨line, rfl⟩
  | succ n =>
      have found : splitText
          ('\x7b' :: '#' :: (List.replicate (n + 1) '\n' ++ '#' :: '\x7d' :: rest)) =
          ([], some ('#', List.replicate (n + 1) '\n' ++ '#' :: '\x7d' :: rest)) := rfl
      obtain ⟨tagLine, line', pieces⟩ :=
        Nests.piecesFrom_closed found (splitTag_lineBreaks (n + 1) rest) line false
      rw [trimming_lineBreaks] at pieces
      refine ⟨line', ?_⟩
      simpa [textPiece, tagPiece] using pieces

theorem ofPage_between {tag : Tag} (sealed : tag.Sealed) (args emitted : List Char)
    {before after : List Char} (plainBefore : Tagless before)
    (last : before.getLast? ≠ some '\x7b') (plainAfter : Tagless after) :
    ∃ line, Piece.ofPage (before ++ ((tag.print ++ padding args emitted) ++ after)) =
      whole before 1 ++ tag.piece (1 + lineBreaks before) :: whole after line := by
  obtain ⟨line, padded⟩ := piecesFrom_padding args emitted
    (1 + lineBreaks before + lineBreaks tag.print) after
  refine ⟨line, ?_⟩
  rw [Piece.ofPage, List.append_assoc, sealed.piecesFrom_behind plainBefore last, padded,
    textPiece_whole, piecesFrom_tagless plainAfter]

end Segment

/-! ### Pages -/

theorem parse_between {expression args emitted before after : List Char} {template : String}
    {alone : Page} (sealed : (Tag.echo expression).Sealed) (plainBefore : Tagless before)
    (last : before.getLast? ≠ some '\x7b') (plainAfter : Tagless after)
    (compiled : Page.parse template
      ((Tag.echo expression).print ++ Segment.padding args emitted) = .ok alone) :
    ∃ e f, alone = ⟨template, [.echo e]⟩ ∧ Page.parse template
      (before ++ (((Tag.echo expression).print ++ Segment.padding args emitted) ++ after)) =
        .ok ⟨template, Evaluation.texts before ++ .echo (e.relabel f) :: Evaluation.texts
          after⟩ := by
  set body := (Tag.echo expression).body
  obtain ⟨line, pieces⟩ := Segment.ofPage_between sealed args emitted plainBefore last plainAfter
  obtain ⟨_, piece⟩ := Segment.ofPage_between sealed args emitted Tagless.nil (by simp) Tagless.nil
  have atStart : Token.ofPage ((Tag.echo expression).print ++ Segment.padding args emitted) =
      Token.ofPieces [.echo body 1 true] := by
    rw [List.nil_append, List.append_nil] at piece
    rw [Token.ofPage_eq, piece]
    rfl
  have tokens : Token.ofPage
      (before ++ (((Tag.echo expression).print ++ Segment.padding args emitted) ++ after)) =
        Token.ofPieces (whole before 1) ++ ((Token.ofPieces [.echo body 1 true]).map
          (Lexeme.relabel (shiftedLine (lineBreaks before))) ++ Token.ofPieces
            (whole after line)) := by
    rw [Token.ofPage_eq, pieces, ← Token.ofPieces_echo_shift, ← Token.ofPieces_append,
      ← Token.ofPieces_append]
    rfl
  obtain ⟨sameTemplate, stop, ran⟩ := parse_eq_ok_iff.mp compiled
  rw [atStart] at ran
  have readAfter : ReadAs (Token.ofPieces (whole after line)) (Evaluation.texts after) := by
    simpa using ReadAs.nil.text after line
  obtain ⟨e, statements, readEcho⟩ := readAfter.echo ran (shiftedLine (lineBreaks before))
  refine ⟨e, shiftedLine (lineBreaks before), ?_, ?_⟩
  · obtain ⟨_, _⟩ := alone
    cases sameTemplate
    cases statements
    rfl
  · refine ReadAs.parse ?_ template
    rw [tokens]
    exact readEcho.text before 1

/-! ### A brace in front of the echo -/

theorem statements_spoiled {n levels : Nat} {ends : List String} {cursor : Cursor}
    (inner behind : List Token)
    (ahead : cursor.ahead.map Lexeme.token = .openEcho :: (inner ++ behind))
    (inside : Token.Inside inner) (noEnd : behind = [] ∨ (∃ more, behind = .closeEcho :: more) ∧
      ¬ Expressible inner) (result : List Statement × Cursor) :
    (statements n levels ends).run cursor ≠ .ok result := by
  intro run
  obtain ⟨body, stop⟩ := result
  cases n with
  | zero => exact not_ok_of_fails fails_unexpected run
  | succ n =>
      obtain ⟨opened, later⟩ := head?_eq ahead
      obtain ⟨value, reached, rest, inner', -, ran, closed, -⟩ := statements_echo opened run
      rcases noEnd with rfl | ⟨⟨more, rfl⟩, noExpression⟩
      · rw [List.append_nil] at later
        exact expressionWithin_unclosed inside Token.not_isInner_closeEcho later ran closed
      · obtain ⟨-, expressible, -⟩ := expressionWithin_closed (fun _ => False) inside
          Token.not_isInner_closeEcho later ran closed
        exact noExpression expressible

theorem statements_behindText {n levels : Nat} {ends : List String} {cursor : Cursor}
    {text : List Token} (isText : text = [] ∨ ∃ s, text = [.text s]) {tokens : List Token}
    (ahead : cursor.ahead.map Lexeme.token = text ++ tokens)
    (stuck : ∀ n cursor result, cursor.ahead.map Lexeme.token = tokens →
      (statements n levels ends).run cursor ≠ .ok result) (result : List Statement × Cursor) :
    (statements n levels ends).run cursor ≠ .ok result := by
  rcases isText with rfl | ⟨s, rfl⟩
  · exact stuck n cursor result ahead
  · intro run
    obtain ⟨body, stop⟩ := result
    cases n with
    | zero => exact not_ok_of_fails fails_unexpected run
    | succ n =>
        obtain ⟨first, later⟩ := head?_eq ahead
        obtain ⟨rest, -, behind⟩ := statements_text first run
        exact stuck n _ _ later behind

theorem tokens_textPiece (start stop : Bool) (chars : List Char) (line : Nat) :
    (textPiece start stop chars line).flatMap tokens = [] ∨
      ∃ s, (textPiece start stop chars line).flatMap tokens = [.text s] := by
  rcases Nests.textPiece_cases start stop chars line with empty | ⟨kept, line', text⟩
  · rw [empty]
    exact .inl rfl
  · rw [text]
    exact .inr ⟨_, rfl⟩

theorem piecesFrom_unclosed {page lead body : List Char} {kind : Char}
    (found : splitText page = (lead, some (kind, body))) (endless : splitTag kind {} body = none)
    (line : Nat) (trimmed : Bool) :
    ∃ tagLine, piecesFrom line trimmed page =
      textPiece trimmed (splitOpeningSign body).1 lead line ++
        tagPiece kind (splitOpeningSign body).2 tagLine false := by
  rw [piecesFrom]
  split
  · next found' => cases found.symm.trans found'
  · next found' =>
      cases found.symm.trans found'
      simp only
      split
      · exact ⟨_, rfl⟩
      · next ended => cases endless.symm.trans ended

/-- The page of which the first tag is an echo that begins with a text in which no expression fits
cannot be read. -/
theorem Spoils.not_parsed {text lead rest page : List Char} (h : Spoils text)
    (found : splitText page = (lead, some ('\x7b', text ++ rest))) (template : String)
    (result : Page) :
    Page.parse template page ≠ .ok result := by
  intro parsed
  obtain ⟨-, stop, ran⟩ := parse_eq_ok_iff.mp parsed
  rcases h.cut rest with endless | ⟨inside, after, ended, noExpression⟩
  · obtain ⟨tagLine, pieces⟩ := piecesFrom_unclosed found endless 1 false
    have whole := map_token_ofPage page
    rw [ofPage, pieces, List.flatMap_append] at whole
    refine statements_behindText (tokens_textPiece _ _ _ _) whole
      (fun n cursor result ahead => ?_) _ ran
    refine statements_spoiled (Token.tokensOf (splitOpeningSign (text ++ rest)).2) [] ?_
      (Token.inside_tokensOf _) (.inl rfl) result
    simpa [tagPiece, tokens] using ahead
  · obtain ⟨tagLine, line', pieces⟩ := Nests.piecesFrom_closed found ended 1 false
    have whole := map_token_ofPage page
    rw [ofPage, pieces, List.append_assoc, List.flatMap_append] at whole
    refine statements_behindText (tokens_textPiece _ _ _ _) whole
      (fun n cursor result ahead => ?_) _ ran
    refine statements_spoiled (Token.tokensOf (Trimming.of '\x7b' inside).inside)
      (.closeEcho :: pageTokens line' (Trimming.of '\x7b' inside).after after) ?_
      (Token.inside_tokensOf _) (.inr ⟨⟨_, rfl⟩, noExpression⟩) result
    simpa [tagPiece, tokens, pageTokens] using ahead

theorem not_parsed_behindBrace {lead args rest : List Char} (function : PageFunction)
    (contained : Contained args) (plain : Tagless (lead ++ ['\x7b'])) (template : String)
    (result : Page) : Page.parse template (lead ++ ['\x7b'] ++
      ((Tag.echo (function.call args)).print ++ rest)) ≠ .ok result := by
  have last : lead.getLast? ≠ some '\x7b' := by
    intro brace
    obtain ⟨front, rfl⟩ := List.getLast?_eq_some_iff.mp brace
    have twice : ['\x7b', '\x7b'] <:+: front ++ ['\x7b'] ++ ['\x7b'] :=
      ⟨front, [], by simp⟩
    exact absurd (plain _ _ twice) (by decide)
  have plainLead : Tagless lead :=
    fun c d inText => plain c d (inText.trans (List.prefix_append _ _).isInfix)
  have found : splitText (lead ++ ['\x7b'] ++ ((Tag.echo (function.call args)).print ++ rest)) =
      (lead, some ('\x7b', ('\x7b' :: ' ' :: (function.call args ++ [' ', '\x7d'])) ++
        '\x7d' :: rest)) := by
    rw [List.append_assoc, splitText_append plainLead last]
    simp [Tag.print, splitText, Segment.opensTag]
  exact (Spoils.call function contained).not_parsed found template result

/-! ### Sources -/

theorem Builtin.bareIteration_of_inline {entry : Directive} (builtin : entry ∈ Builtin.directives)
    (inline : entry.role = .inline) : entry.bareIteration = false := by
  cases accepts : entry.bareIteration with
  | false => rfl
  | true => rcases Segment.eq_of_bareIteration builtin accepts with rfl | rfl <;> cases inline

theorem Emission.echo_of_inline {args : List Char} {tags : List Tag}
    (h : Emission args .inline tags) : ∃ (function : PageFunction) (passed : List Char),
      tags = [.echo (function.call passed)] ∧ Contained passed := by
  cases h with
  | echo _ h => exact ⟨_, _, rfl, h.contained⟩

namespace Segment

def ofText (text : List Char) : List Segment :=
  if text.isEmpty then [] else [.verbatim text]

variable {registry : Registry} {entry : Directive} {name : String}

theorem takeBareIterations_between (registered : registry.find? name = some entry)
    (parenthesized : entry.bareIteration = false) (before args after : List Char) (line : Nat) :
    takeBareIterations registry (ofText before ++ .directive name args line :: ofText after) =
      ofText before ++ .directive name args line :: ofText after := by
  have refuses : (registry.find? name).any (·.bareIteration) = false := by
    simp [registered, parenthesized]
  have behind : takeBareIterations registry (.directive name args line :: ofText after) =
      .directive name args line :: ofText after := by
    cases args <;> cases after <;> simp [ofText, takeBareIterations, refuses]
  cases before with
  | nil => exact behind
  | cons c before => exact congrArg (List.cons (.verbatim (c :: before))) behind

theorem expandFrom_ofText {code : List Char} {segments : List Segment} (text : List Char)
    (expanded : expandFrom registry [] segments = .ok code) :
    expandFrom registry [] (ofText text ++ segments) = .ok (text ++ code) := by
  cases text with
  | nil => exact expanded
  | cons c text =>
      have step := expandFrom_verbatim_eq registry [] (c :: text) segments
      rw [expanded] at step
      exact step

theorem expandFrom_between {args emitted : List Char}
    (registered : registry.find? name = some entry) (inline : entry.role = .inline)
    (expanded : entry.expand args = .ok emitted) (before after : List Char) (line : Nat) :
    expandFrom registry [] (ofText before ++ .directive name args line :: ofText after) =
      .ok (before ++ ((emitted ++ padding args emitted) ++ after)) := by
  have directed : expandDirective registry [] name args line = .ok ([], emitted) := by
    simp [expandDirective, registered, inline, OpenBlock.step, expanded, bind, Except.bind, pure,
      Except.pure]
  have behind : expandFrom registry [] (ofText after) = .ok after := by
    have nothing : expandFrom registry [] [] = .ok [] := rfl
    simpa using expandFrom_ofText after nothing
  refine expandFrom_ofText before ?_
  rw [expandFrom_directive_eq, directed]
  simp only [behind]
  rfl

/-- The code of a source that is one inline directive: an echo of a call, and the line breaks that
it lacks. -/
theorem code_of_inline {args : List Char} {line : Nat} {source code : List Char}
    (registered : registry.find? name = some entry) (builtin : entry ∈ Builtin.directives)
    (inline : entry.role = .inline) (scanned : scan source = .ok [.directive name args line])
    (expanded : expand registry source = .ok code) :
    ∃ (function : PageFunction) (passed emitted : List Char),
      entry.expand args = .ok emitted ∧ emitted = (Tag.echo (function.call passed)).print ∧
      code = emitted ++ padding args emitted ∧ Contained passed ∧
      (Tag.echo (function.call passed)).Sealed := by
  have single : takeBareIterations registry [.directive name args line] =
      [.directive name args line] :=
    takeBareIterations_between registered (Builtin.bareIteration_of_inline builtin inline)
      [] args [] line
  obtain ⟨segments, scanned', expandedFrom⟩ := Except.bind_eq_ok_iff.mp expanded
  cases scanned.symm.trans scanned'
  rw [single] at expandedFrom
  obtain ⟨blocks, emitted, later, directed, rest, rfl⟩ := expandFrom_directive expandedFrom
  obtain ⟨-, rfl⟩ := expandFrom_nil rest
  obtain ⟨entry', registered', -, accepted⟩ := expandDirective_ok directed
  cases registered.symm.trans registered'
  obtain ⟨tags, rfl, emission, sealed, -⟩ := emitted_tags_sealed scanned
    (single ▸ List.mem_singleton_self _) registered builtin accepted
  rw [inline] at emission
  obtain ⟨function, passed, rfl, contained⟩ := emission.echo_of_inline
  refine ⟨function, passed, _, accepted, ?_, List.append_nil _, contained,
    sealed _ (List.mem_singleton_self _)⟩
  exact List.append_nil _

end Segment

/-- An inline directive between texts without page tags expands to its code between the texts. If
the code compiles by itself, the whole compiles if and only if no brace stands right in front of it.
Every render of the whole then comes to what the directive comes to by itself, its output between
the texts. -/
theorem junction_kept_iff {registry : Registry} {entry : Directive} {name : String}
    (registered : registry.find? name = some entry) (builtin : entry ∈ Builtin.directives)
    (inline : entry.role = .inline) {before source after args : List Char} {line : Nat}
    (plainBefore : Tagless before) (plainAfter : Tagless after)
    (scanned : Segment.scan source = .ok [.directive name args 1])
    (between : Segment.scan (before ++ (source ++ after)) =
      .ok (Segment.ofText before ++ .directive name args line :: Segment.ofText after))
    {code : List Char} (expanded : expand registry source = .ok code) {template : String}
    {alone : Page} (compiled : Page.parse template code = .ok alone) :
    expand registry (before ++ (source ++ after)) = .ok (before ++ (code ++ after)) ∧
      ((∃ page, Page.parse template (before ++ (code ++ after)) = .ok page) ↔
        before.getLast? ≠ some '\x7b') ∧
      ∀ page, Page.parse template (before ++ (code ++ after)) = .ok page →
        ∀ {σ : Type} (render : Render σ) (data : ViewData) (start : RenderState σ),
          render.outcome page data start =
            ((render.outcome alone data start).1.map
              fun output => String.ofList before ++ output ++ String.ofList after,
              (render.outcome alone data start).2) := by
  obtain ⟨function, passed, emitted, accepted, rfl, rfl, contained, sealed⟩ :=
    Segment.code_of_inline registered builtin inline scanned expanded
  have whole : expand registry (before ++ (source ++ after)) =
      .ok (before ++ (((Tag.echo (function.call passed)).print ++
        Segment.padding args (Tag.echo (function.call passed)).print) ++ after)) := by
    unfold expand
    rw [between]
    show Segment.expandFrom registry [] (Segment.takeBareIterations registry _) = _
    rw [Segment.takeBareIterations_between registered
      (Builtin.bareIteration_of_inline builtin inline)]
    exact Segment.expandFrom_between registered inline accepted before after line
  have noBrace : ∀ page, Page.parse template (before ++
      (((Tag.echo (function.call passed)).print ++
        Segment.padding args (Tag.echo (function.call passed)).print) ++ after)) = .ok page →
      before.getLast? ≠ some '\x7b' := by
    intro page parsed brace
    obtain ⟨lead, rfl⟩ := List.getLast?_eq_some_iff.mp brace
    rw [List.append_assoc _ _ after] at parsed
    exact not_parsed_behindBrace function contained plainBefore template page parsed
  refine ⟨whole, ⟨fun compiles => ?_, fun last => ?_⟩, fun page parsed σ render data start => ?_⟩
  · obtain ⟨page, parsed⟩ := compiles
    exact noBrace page parsed
  · obtain ⟨e, f, -, parsed⟩ := parse_between sealed plainBefore last plainAfter compiled
    exact ⟨_, parsed⟩
  · obtain ⟨e, f, rfl, parsed'⟩ :=
      parse_between sealed plainBefore (noBrace page parsed) plainAfter compiled
    cases parsed.symm.trans parsed'
    exact render.outcome_between template before after f e data start

def spreadPartial : List Char :=
  "@partial('card'\n)".toList

def spreadCode : List Char :=
  "\x7b\x7b __render_child('partials.card', \x7b\x7d) \x7d\x7d\x7b#\n#\x7d".toList

def openRule : List Char :=
  "h \x7b ".toList

def closeRule : List Char :=
  "\x7d".toList

theorem spreadPartial_kept_iff : ∃ alone, Page.parse "page" spreadCode = .ok alone ∧
    expand Registry.builtin (openRule ++ (spreadPartial ++ closeRule)) =
        .ok (openRule ++ (spreadCode ++ closeRule)) ∧
      ((∃ page, Page.parse "page" (openRule ++ (spreadCode ++ closeRule)) = .ok page) ↔
        openRule.getLast? ≠ some '\x7b') ∧
      ∀ page, Page.parse "page" (openRule ++ (spreadCode ++ closeRule)) = .ok page →
        ∀ {σ : Type} (render : Render σ) (data : ViewData) (start : RenderState σ),
          render.outcome page data start =
            ((render.outcome alone data start).1.map
              fun output => String.ofList openRule ++ output ++ String.ofList closeRule,
              (render.outcome alone data start).2) := by
  have registered : Registry.builtin.find? "partial" =
      some (Builtin.inlineDirective "partial" Builtin.childPartial) := rfl
  have builtin : Builtin.inlineDirective "partial" Builtin.childPartial ∈ Builtin.directives := by
    simp [Builtin.directives]
  have plain : Tagless openRule ∧ Tagless closeRule :=
    ⟨tagless_iff.mpr (by decide), tagless_iff.mpr (by decide)⟩
  have scanned : Segment.scan spreadPartial =
      .ok [.directive "partial" "('card'\n)".toList 1] := by
    decide +kernel
  have between : Segment.scan (openRule ++ (spreadPartial ++ closeRule)) =
      .ok (Segment.ofText openRule ++ .directive "partial" "('card'\n)".toList 1 ::
        Segment.ofText closeRule) := by
    decide +kernel
  have expanded : expand Registry.builtin spreadPartial = .ok spreadCode := by
    decide +kernel
  have compiles : (Page.parse "page" spreadCode).toOption.isSome = true := by
    decide +kernel
  cases compiled : Page.parse "page" spreadCode with
  | error error =>
      rw [compiled] at compiles
      cases compiles
  | ok alone =>
      exact ⟨alone, rfl, junction_kept_iff registered builtin rfl plain.1 plain.2 scanned between
        expanded compiled⟩

end ThemeTemplates
