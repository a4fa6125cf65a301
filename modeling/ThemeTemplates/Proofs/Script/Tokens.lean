import ThemeTemplates.Proofs.Directive.LineBreaks
import ThemeTemplates.Proofs.Page.Forward
import ThemeTemplates.Proofs.Page.Shift
import ThemeTemplates.Proofs.Script.Basic

/-!
# Tokens of scripts

The tags that a script is expanded to stand on one line each. So the tokens of its page are known
one by one, with their lines.
-/

namespace ThemeTemplates

open Piece (textPiece_whole piecesFrom_tagless)

namespace Token

theorem inTag_oneLine {bound before line : Nat} {chars : List Char} (oneLine : '\n' ∉ chars)
    (flawless : ∀ reason, flaw reason ∉ tokensWithin bound chars) :
    inTag bound before line chars = onLine line (tokensWithin bound chars) := by
  induction bound generalizing before chars with
  | zero => rfl
  | succ bound ih =>
      have noBreak : '\n' ∉ chars.takeWhile isAsciiBlank := fun hmem =>
        oneLine ((List.takeWhile_prefix _).subset hmem)
      have kept : '\n' ∉ chars.dropWhile isAsciiBlank := fun hmem =>
        oneLine ((List.dropWhile_suffix _).subset hmem)
      cases found : chars.dropWhile isAsciiBlank with
      | nil => simp only [inTag, tokensWithin, found, onLine, List.map_nil]
      | cons c rest =>
          rcases read_cases c rest with
            ⟨reason, after, first⟩ | ⟨token, chunk, after, first, whole, chunked⟩
          · rw [tokensWithin_flaw found first] at flawless
            exact absurd (List.mem_singleton_self _) (flawless reason)
          · rw [found, whole] at kept
            rw [tokensWithin_chunk found first chunked] at flawless ⊢
            have later : '\n' ∉ after := fun hmem => kept (List.mem_append_right _ hmem)
            have sameLine : line + (lineBreaks (c :: rest) - lineBreaks after) = line := by
              rw [whole, lineBreaks_eq_zero kept, Nat.zero_sub, Nat.add_zero]
            have behind : inTag bound line (line + (lineBreaks (c :: rest) - lineBreaks after))
                after =
                onLine line (tokensWithin bound after) := by
              rw [sameLine]
              exact ih later fun reason hmem => flawless reason (List.mem_cons_of_mem _ hmem)
            simp only [inTag, found, first, lineBreaks_eq_zero noBreak, Nat.add_zero]
            cases chunked <;> exact congrArg (_ :: ·) behind

end Token

namespace Tag

def startToken : Tag → Token
  | echo _ => .openEcho
  | statement _ => .openStatement

def stopToken : Tag → Token
  | echo _ => .closeEcho
  | statement _ => .closeStatement

/-- A tag that stands on one line and holds some tokens. -/
structure Holds (tag : Tag) (tokens : List Token) : Prop where
  ends : tag.Sealed
  contained : Contained tag.content
  oneLine : '\n' ∉ tag.content
  reads : Token.tokensOf tag.content = tokens
  flawless : ∀ reason, Token.flaw reason ∉ tokens

variable {tag : Tag} {tokens : List Token} {text : List Char}

theorem Holds.ofPieces (h : tag.Holds tokens) (line : Nat) :
    Token.ofPieces [tag.piece line] =
      Token.onLine (shiftedLine 0 line) (tag.startToken :: (tokens ++ [tag.stopToken])) := by
  have oneLine : '\n' ∉ tag.body := by simpa [body] using h.oneLine
  have held : Token.tokensWithin tag.body.length tag.body = tokens :=
    (tokensOf_emitted h.contained).trans h.reads
  have inside : Token.inTag tag.body.length line line tag.body = Token.onLine line tokens := by
    rw [Token.inTag_oneLine oneLine (held ▸ h.flawless), held]
  have stop : line + lineBreaks tag.body = line := by rw [lineBreaks_eq_zero oneLine, Nat.add_zero]
  cases tag <;>
    simp [Token.ofPieces, piece, Token.ofPiece, Token.ofPiece.tag, inside, stop, Token.onLine,
      Lexeme.relabel, startToken, stopToken]

end Tag

def pageLexemes (line : Nat) (page : List Char) : List Lexeme :=
  Token.ofPieces (Piece.piecesFrom line false page)

def textLexemes (line : Nat) (text : String) : List Lexeme :=
  if text.toList.isEmpty then [] else [⟨.text text, shiftedLine 0 line⟩]

section

variable {tag : Tag} {tokens : List Token} {text : String}

theorem ofPieces_whole (line : Nat) :
    Token.ofPieces (Piece.whole text.toList line) = textLexemes line text := by
  unfold Piece.whole textLexemes
  split
  · rfl
  · simp [Token.ofPieces, Token.ofPiece, Lexeme.relabel]

theorem tagless_of_noBrace (h : text.toList.all (· != '\x7b') = true) :
    Tagless text.toList ∧ text.toList.getLast? ≠ some '\x7b' := by
  have other : ∀ c ∈ text.toList, c ≠ '\x7b' := fun c hmem => by
    simpa using List.all_eq_true.mp h c hmem
  refine ⟨fun c d inText => ?_, fun last => other _ (List.mem_of_getLast? last) rfl⟩
  exact Tagless.noTag_behind (other c (inText.subset List.mem_cons_self))

theorem pageLexemes_text (h : text.toList.all (· != '\x7b') = true) (line : Nat) :
    pageLexemes line text.toList = textLexemes line text := by
  rw [pageLexemes, piecesFrom_tagless (tagless_of_noBrace h).1, ofPieces_whole]

theorem pageLexemes_tag (h : text.toList.all (· != '\x7b') = true) (holds : tag.Holds tokens)
    (line : Nat) (rest : List Char) :
    pageLexemes line (text.toList ++ (tag.print ++ rest)) =
      textLexemes line text ++
        (Token.onLine (shiftedLine 0 (line + lineBreaks text.toList))
          (tag.startToken :: (tokens ++ [tag.stopToken])) ++
        pageLexemes (line + lineBreaks text.toList) rest) := by
  obtain ⟨plain, last⟩ := tagless_of_noBrace h
  have noBreak : lineBreaks tag.print = 0 := by
    rw [← Tag.lineBreaks_body]
    exact lineBreaks_eq_zero (by simpa [Tag.body] using holds.oneLine)
  rw [pageLexemes, holds.ends.piecesFrom_behind plain last, textPiece_whole, noBreak, Nat.add_zero,
    Token.ofPieces_append, ofPieces_whole, ← List.singleton_append, Token.ofPieces_append,
    holds.ofPieces]
  rfl

end

/-! ### The tags of a script -/

theorem tokensOf_name {name : String} (named : isWord name = true) {rest : List Char}
    (ends : rest.head?.any isWordChar = false) :
    Token.tokensOf (name.toList ++ rest) = .name name :: Token.tokensOf rest := by
  obtain ⟨start, letters⟩ := isWord_iff.mp named
  cases same : name.toList with
  | nil =>
      rw [same] at start
      cases start
  | cons c word =>
      rw [same] at start letters
      have chunk : Token.Chunk (.name (String.ofList (c :: word))) (c :: word) rest :=
        .name start (fun d hmem => letters d (List.mem_cons_of_mem _ hmem)) ends
      rw [Token.tokensOf_chunk chunk, ← same, String.ofList_toList]

theorem tokensOf_quoted {s : String} (h : isQuotable s = true) (rest : List Char) :
    Token.tokensOf ('\'' :: (s.toList ++ '\'' :: rest)) = .literal s :: Token.tokensOf rest := by
  have plain := isQuotable_iff.mp h
  have split : Literal.splitText '\'' (s.toList ++ '\'' :: rest) = some (s.toList, rest) := by
    generalize s.toList = text at plain
    induction text with
    | nil => rfl
    | cons c text ih =>
        obtain ⟨⟨noMark, noSlash, -⟩, later⟩ := List.forall_mem_cons.mp plain
        rw [List.cons_append, Literal.splitText]
        · simp [noMark, ih later]
        · rintro d after rfl
          exact absurd rfl noSlash
  have value : Literal.unescape s.toList.length s.toList = some s.toList := by
    generalize s.toList = text at plain
    induction text with
    | nil => rfl
    | cons c text ih =>
        obtain ⟨⟨-, noSlash, -⟩, later⟩ := List.forall_mem_cons.mp plain
        rw [List.length_cons, Literal.unescape]
        · simp [noSlash, ih later]
        all_goals
          intros
          exact absurd ‹c = '\\'› noSlash
  have chunk : Token.Chunk (.literal (String.ofList s.toList)) ('\'' :: s.toList ++ ['\'']) rest :=
    .literal rfl split value
  simpa using Token.tokensOf_chunk chunk

namespace Path

def tokens (path : Path) : List Token :=
  .name path.head :: Parse.fieldTokens path.fields

theorem tokensOf_print {path : Path} (h : path.isOrdinary = true) {rest : List Char}
    (ends : rest.head?.any isWordChar = false) :
    Token.tokensOf (path.print ++ rest) = path.tokens ++ Token.tokensOf rest := by
  obtain ⟨head, fields, -⟩ := isOrdinary_iff.mp h
  have steps : ∀ fields : List String, (∀ field ∈ fields, isWord field = true) →
      ((fields.flatMap fun field => '.' :: field.toList) ++ rest).head?.any isWordChar = false ∧
      Token.tokensOf ((fields.flatMap fun field => '.' :: field.toList) ++ rest) =
        Parse.fieldTokens fields ++ Token.tokensOf rest := by
    intro fields named
    induction fields with
    | nil => exact ⟨ends, rfl⟩
    | cons field fields ih =>
        obtain ⟨this, others⟩ := List.forall_mem_cons.mp named
        obtain ⟨stops, later⟩ := ih others
        simp only [List.flatMap_cons, List.cons_append, List.append_assoc]
        refine ⟨(by decide : isWordChar '.' = false), ?_⟩
        rw [Token.tokensOf_sign (by decide) (by decide), tokensOf_name this stops, later]
        rfl
  obtain ⟨stops, later⟩ := steps path.fields fields
  rw [print, List.append_assoc, tokensOf_name head stops, later]
  rfl

end Path

namespace Operand

def tokens : Operand → List Token
  | path _ p => p.tokens
  | text s => [.literal s]

theorem tokensOf_code {operand : Operand} (h : operand.isOrdinary = true) {rest : List Char}
    (ends : rest.head?.any isWordChar = false) :
    Token.tokensOf (operand.code ++ rest) = operand.tokens ++ Token.tokensOf rest := by
  cases operand with
  | path sigil path => exact Path.tokensOf_print h ends
  | text s =>
      have quoted := tokensOf_quoted h rest
      simpa [code, tokens] using quoted

theorem contained_code {operand : Operand} (h : operand.isOrdinary = true) :
    Contained operand.code := by
  rw [← pageExpression_print h]
  exact (contained_print h).pageExpression

end Operand

namespace Script

def itemsTokens (kind : LoopKind) (source : Operand) : List Token :=
  match kind with
  | .loop => source.tokens
  | .simpleMenu =>
    .name PageFunction.navMenu.name :: .sign "(" :: (source.tokens ++ [.sign ")"])

theorem tokensOf_itemsCode (kind : LoopKind) {source : Operand} (h : source.isOrdinary = true)
    {rest : List Char} (ends : rest.head?.any isWordChar = false) :
    Token.tokensOf (itemsCode kind source ++ rest) =
      itemsTokens kind source ++ Token.tokensOf rest := by
  cases kind with
  | loop => exact Operand.tokensOf_code h ends
  | simpleMenu =>
      rw [itemsCode, Token.tokensOf_call, Operand.tokensOf_code h (by rfl), Emittable.close_tokens]
      simp [itemsTokens]

theorem contained_itemsCode (kind : LoopKind) {source : Operand} (h : source.isOrdinary = true) :
    Contained (itemsCode kind source) := by
  cases kind with
  | loop => exact Operand.contained_code h
  | simpleMenu => exact Emittable.contained_call .navMenu (Operand.contained_code h)

theorem oneLine_itemsCode (kind : LoopKind) {source : Operand} (h : source.isOrdinary = true) :
    '\n' ∉ itemsCode kind source := by
  have code : '\n' ∉ source.code := by
    cases source with
    | path sigil path => exact oneLine_path h
    | text s => simp [Operand.code, oneLine_quotable h]
  cases kind with
  | loop => exact code
  | simpleMenu => simp [itemsCode, PageFunction.call, PageFunction.name, code]

theorem flawless_itemsTokens (kind : LoopKind) (source : Operand) (reason : PageFlaw) :
    Token.flaw reason ∉ itemsTokens kind source := by
  have operand : Token.flaw reason ∉ source.tokens := by
    cases source <;> simp [Operand.tokens, Path.tokens, Parse.fieldTokens]
  cases kind with
  | loop => exact operand
  | simpleMenu => simp [itemsTokens, operand]

/-! ### Tags -/

theorem holds_echo {path : Path} (h : path.isOrdinary = true) :
    (Tag.echo path.print).Holds path.tokens where
  ends := by
    have passes : Passes '\x7b' {} path.print := by
      refine Passes.of_noMark fun c hmem => ?_
      rcases Path.mem_print h hmem with word | rfl
      · rintro rfl
        exact absurd word (by decide)
      · decide
    exact @Sealable.tag (.echo path.print) ⟨Operand.contained_path h, passes⟩
  contained := Operand.contained_path h
  oneLine := oneLine_path h
  reads := by
    have tokens := @Path.tokensOf_print path h [] rfl
    rw [List.append_nil, Token.tokensOf_nil, List.append_nil] at tokens
    exact tokens
  flawless := by simp [Path.tokens, Parse.fieldTokens]

def forTokens (kind : LoopKind) (source : Operand) (name : String) : List Token :=
  [.name "for", .name name, .name "in", .name PageFunction.loopPush.name, .sign "("] ++
    (itemsTokens kind source ++ [.sign ",", .literal kind.name, .sign ")"])

theorem holds_for (kind : LoopKind) {source : Operand} (h : source.isOrdinary = true)
    {name : String} (named : isWord name = true) :
    (Tag.statement ("for ".toList ++ name.toList ++ " in ".toList ++ PageFunction.call .loopPush
      (Builtin.commaSeparated (itemsCode kind source) (Builtin.kindLiteral kind)))).Holds
      (forTokens kind source name) := by
  obtain ⟨start, letters⟩ := isWord_iff.mp named
  have args := contained_commaSeparated (contained_itemsCode kind h) (contained_kindLiteral kind)
  have called := Emittable.contained_call .loopPush args
  have sealable : Sealable '%' ("for ".toList ++ name.toList ++ " in ".toList ++
      PageFunction.call .loopPush
        (Builtin.commaSeparated (itemsCode kind source) (Builtin.kindLiteral kind))) :=
    Sealable.append ⟨contained_for letters, passes_for letters⟩
      (.call .loopPush (by decide) (.inl rfl) args)
  refine ⟨@Sealable.tag (.statement _) sealable, sealable.contained, ?_, ?_, ?_⟩
  · have inName := oneLine_word letters
    have inItems := oneLine_itemsCode kind h
    have inKind : '\n' ∉ Builtin.kindLiteral kind := by cases kind <;> decide
    simp [Tag.content, PageFunction.call, PageFunction.name, Builtin.commaSeparated,
      inName, inItems, inKind]
  · show Token.tokensOf (_ ++ _ ++ _ ++ PageFunction.call .loopPush _) = _
    rw [tokensOf_for start letters, commaSeparated_close, tokensOf_itemsCode kind h (by rfl),
      tokensOf_comma, kindLiteral_close, String.ofList_toList]
    rfl
  · intro reason
    simp [forTokens, flawless_itemsTokens]

def setTokens (function : PageFunction) (args : List Token) : List Token :=
  [.name "set", .name "blade_loop", .sign "=", .name function.name, .sign "("] ++
    (args ++ [.sign ")"])

theorem holds_set (function : PageFunction) {args : List Char} {argTokens : List Token}
    (contained : Contained args) (oneLine : '\n' ∉ args)
    (reads : Token.tokensOf (args ++ [')']) = argTokens ++ [.sign ")"])
    (flawless : ∀ reason, Token.flaw reason ∉ argTokens) :
    (Builtin.setLoopVariable (function.call args)).Holds (setTokens function argTokens) where
  ends := sealed_setLoopVariable function contained
  contained := contained_setPrefix.append (Emittable.contained_call function contained)
  oneLine := by
    have inName := oneLine_word (Token.name_word function).2
    have inPrefix : '\n' ∉ setPrefix := by decide +kernel
    show '\n' ∉ setPrefix ++ function.call args
    simp [PageFunction.call, inName, inPrefix, oneLine]
  reads := by
    have call := Token.tokensOf_call function args []
    rw [List.append_nil, reads] at call
    show Token.tokensOf (setPrefix ++ function.call args) = _
    rw [tokensOf_setPrefix, call]
    rfl
  flawless := by
    intro reason
    simp [setTokens, flawless]

theorem holds_next (kind : LoopKind) {name : String} (named : isWord name = true) :
    (Builtin.setLoopVariable (PageFunction.call .loopNext
      (Builtin.commaSeparated name.toList (Builtin.kindLiteral kind)))).Holds
      (setTokens .loopNext [.name name, .sign ",", .literal kind.name]) := by
  obtain ⟨start, letters⟩ := isWord_iff.mp named
  have inKind : '\n' ∉ Builtin.kindLiteral kind := by cases kind <;> decide
  refine holds_set .loopNext
    (contained_commaSeparated (contained_word letters) (contained_kindLiteral kind)) ?_ ?_ (by simp)
  · simp [Builtin.commaSeparated, oneLine_word letters, inKind]
  · have tokens := nextArguments start letters kind
    rwa [String.ofList_toList] at tokens

theorem holds_pop (kind : LoopKind) :
    (Builtin.setLoopVariable (PageFunction.call .loopPop (Builtin.kindLiteral kind))).Holds
      (setTokens .loopPop [.literal kind.name]) :=
  holds_set .loopPop (contained_kindLiteral kind)
    (by cases kind <;> decide) (kindLiteral_close kind) (by simp)

theorem holds_endFor : (Tag.statement "endfor".toList).Holds [.name "endfor"] where
  ends := @Sealable.tag (.statement "endfor".toList) (.plain rfl rfl)
  contained := rfl
  oneLine := by decide +kernel
  reads := by
    have word := @Token.tokensOf_word [] "endfor".toList rfl (List.all_eq_true.mp rfl) Delimits.nil
    rw [List.append_nil, String.ofList_toList, Token.tokensOf_nil] at word
    exact word
  flawless := by simp

theorem toList_childTemplate (slug : String) :
    (childTemplate slug).toList = "partials.".toList ++ childName slug :=
  String.toList_ofList

theorem isQuotable_childTemplate {slug : String} (h : isQuotable slug = true) :
    isQuotable (childTemplate slug) = true := by
  refine isQuotable_iff.mpr fun c hmem => ?_
  rw [toList_childTemplate, List.mem_append] at hmem
  rcases hmem with hmem | hmem
  · have plain : isQuotable "partials." = true := by decide +kernel
    exact isQuotable_iff.mp plain c hmem
  · obtain ⟨d, inSlug, rfl⟩ := List.mem_map.mp hmem
    split
    · decide
    · exact isQuotable_iff.mp h d ((stripEnds_sublist isSeparator slug.toList).subset inSlug)

def childTokens (slug : String) : List Token :=
  [.name PageFunction.renderChild.name, .sign "(", .literal (childTemplate slug), .sign ",",
    .sign "\x7b", .sign "\x7d", .sign ")"]

theorem holds_child {slug : String} (h : isQuotable slug = true) :
    (childTag slug).Holds (childTokens slug) := by
  have quotable := isQuotable_childTemplate h
  have literal : encodeLiteral ("partials.".toList ++ childName slug) =
      '\'' :: ((childTemplate slug).toList ++ ['\'']) := by
    rw [← encodeLiteral_of_isQuotable quotable, toList_childTemplate]
  have args : Contained (Builtin.commaSeparated
      (encodeLiteral ("partials.".toList ++ childName slug)) Builtin.noFields) :=
    contained_commaSeparated (Emittable.encodeLiteral _).contained rfl
  have called : Sealable '\x7b' (childTag slug).content :=
    .call .renderChild (by decide) (.inr rfl) args
  refine ⟨@Sealable.tag (childTag slug) called, called.contained, ?_, ?_, by simp [childTokens]⟩
  · have inLiteral := oneLine_quotable quotable
    show '\n' ∉ PageFunction.call .renderChild (Builtin.commaSeparated (encodeLiteral _) _)
    rw [literal]
    simp [PageFunction.call, PageFunction.name, Builtin.commaSeparated, inLiteral, Builtin.noFields]
  · have call := Token.tokensOf_call .renderChild (Builtin.commaSeparated
      (encodeLiteral ("partials.".toList ++ childName slug)) Builtin.noFields) []
    have behind : Token.tokensOf (Builtin.noFields ++ [')']) =
        [.sign "\x7b", .sign "\x7d", .sign ")"] := by
      show Token.tokensOf ('\x7b' :: '\x7d' :: ')' :: []) = _
      rw [Token.tokensOf_sign rfl (by decide), Token.tokensOf_sign rfl (by decide),
        Emittable.close_tokens, Token.tokensOf_nil]
      rfl
    rw [List.append_nil] at call
    refine call.trans ?_
    rw [commaSeparated_close, literal, List.cons_append, List.append_assoc, List.singleton_append,
      tokensOf_quoted quotable, tokensOf_comma, behind]
    rfl

/-! ### Pages -/

def openTokens (kind : LoopKind) (source : Operand) (name : String) : List Token :=
  .openStatement :: (forTokens kind source name ++ [.closeStatement]) ++
    .openStatement :: (setTokens .loopNext [.name name, .sign ",", .literal kind.name] ++
      [.closeStatement])

def closeTokens (kind : LoopKind) : List Token :=
  .openStatement :: ([.name "endfor"] ++ [.closeStatement]) ++
    .openStatement :: (setTokens .loopPop [.literal kind.name] ++ [.closeStatement])

def lexemes (line : Nat) : Script → List Lexeme
  | done text => textLexemes line text
  | echo text path rest =>
    let start := line + lineBreaks text.toList
    textLexemes line text ++
      (Token.onLine (shiftedLine 0 start) (.openEcho :: (path.tokens ++ [.closeEcho])) ++
        rest.lexemes start)
  | loop text kind source name body rest =>
    let start := line + lineBreaks text.toList
    let stop := start + body.breaks
    textLexemes line text ++
      (Token.onLine (shiftedLine 0 start) (openTokens kind source name) ++
        (body.lexemes start ++
          (Token.onLine (shiftedLine 0 stop) (closeTokens kind) ++ rest.lexemes stop)))
  | child text slug rest =>
    let start := line + lineBreaks text.toList
    textLexemes line text ++
      (Token.onLine (shiftedLine 0 start) (.openEcho :: (childTokens slug ++ [.closeEcho])) ++
        rest.lexemes start)

/-- What may follow a script in a page: nothing, or a tag. -/
inductive Resumes : List Char → Prop
  | nil : Resumes []
  | tag {tag : Tag} {tokens : List Token} (holds : tag.Holds tokens) (rest : List Char) :
    Resumes (tag.print ++ rest)

theorem pageLexemes_nil (line : Nat) : pageLexemes line [] = [] :=
  @pageLexemes_text "" rfl line

theorem pageLexemes_here {tag : Tag} {tokens : List Token} (holds : tag.Holds tokens) (line : Nat)
    (rest : List Char) : pageLexemes line (tag.print ++ rest) =
      Token.onLine (shiftedLine 0 line) (tag.startToken :: (tokens ++ [tag.stopToken])) ++
        pageLexemes line rest :=
  @pageLexemes_tag _ _ "" rfl holds line rest

theorem pageLexemes_behind {text : String} (h : text.toList.all (· != '\x7b') = true)
    {rest : List Char} (resumes : Resumes rest) (line : Nat) :
    pageLexemes line (text.toList ++ rest) =
      textLexemes line text ++ pageLexemes (line + lineBreaks text.toList) rest := by
  cases resumes with
  | nil =>
      rw [List.append_nil, pageLexemes_text h, pageLexemes_nil, List.append_nil]
  | tag holds rest => rw [pageLexemes_tag h holds, pageLexemes_here holds]

theorem printTags_pair (first second : Tag) (rest : List Char) :
    printTags [first, second] ++ rest = first.print ++ (second.print ++ rest) := by
  simp [printTags]

theorem pageLexemes_code {script : Script} (h : script.isOrdinary = true) {rest : List Char}
    (resumes : Resumes rest) (line : Nat) :
    pageLexemes line (script.code ++ rest) =
      script.lexemes line ++ pageLexemes (line + script.breaks) rest := by
  induction script generalizing line rest with
  | done text => exact pageLexemes_behind h resumes line
  | echo text path following ih =>
      simp only [isOrdinary, Bool.and_eq_true] at h
      obtain ⟨⟨plain, ordinary⟩, later⟩ := h
      have holds := holds_echo ordinary
      rw [code, List.append_assoc, List.append_assoc, pageLexemes_behind plain (.tag holds _),
        pageLexemes_here holds, ih later resumes, breaks, ← Nat.add_assoc]
      simp only [lexemes, List.append_assoc]
      rfl
  | child text slug following ih =>
      simp only [isOrdinary, Bool.and_eq_true] at h
      obtain ⟨⟨⟨plain, quotable⟩, -⟩, later⟩ := h
      have holds := holds_child quotable
      have single : printTags [childTag slug] = (childTag slug).print := by simp [printTags]
      rw [code, single, List.append_assoc, List.append_assoc,
        pageLexemes_behind plain (.tag holds _), pageLexemes_here holds, ih later resumes, breaks,
        ← Nat.add_assoc]
      simp only [lexemes, List.append_assoc]
      rfl
  | loop text kind source name body following ihBody ihRest =>
      simp only [isOrdinary, Bool.and_eq_true] at h
      obtain ⟨⟨⟨⟨⟨plain, sourced⟩, named⟩, -⟩, ordinaryBody⟩, later⟩ := h
      have word := (isName_iff.mp named).1
      have opens := holds_for kind sourced word
      have next := holds_next kind word
      have ends := holds_endFor
      have pops := holds_pop kind
      have inner : ∀ rest', printTags (closeTags kind) ++ rest' =
          (Tag.statement "endfor".toList).print ++ ((Builtin.setLoopVariable
            (PageFunction.call .loopPop (Builtin.kindLiteral kind))).print ++ rest') :=
        printTags_pair _ _
      rw [code, List.append_assoc, List.append_assoc, List.append_assoc, List.append_assoc,
        openTags, printTags_pair, inner, pageLexemes_behind plain (.tag opens _),
        pageLexemes_here opens, pageLexemes_here next, ihBody ordinaryBody (.tag ends _),
        pageLexemes_here ends, pageLexemes_here pops, ihRest later resumes, breaks]
      simp only [lexemes, openTokens, closeTokens, Token.onLine, List.map_append, List.append_assoc,
        Nat.add_assoc]
      rfl

theorem ofPage_code {script : Script} (h : script.isOrdinary = true) :
    Token.ofPage script.code = script.lexemes 1 := by
  have whole := pageLexemes_code h .nil 1
  rw [List.append_nil, pageLexemes_nil, List.append_nil] at whole
  exact whole

end Script

end ThemeTemplates
