import ThemeTemplates.Directive.Emitted
import ThemeTemplates.Proofs.Page.Spelling

/-!
# Tags of a page and its tokens

A page is followed from its start: a character that opens no tag belongs to a text, and a tag stands
for its tokens, whatever text is trimmed beside it.
-/

namespace ThemeTemplates

variable {hidden : String → Prop}

namespace Piece

def tokens : Piece → List Token
  | .text chars _ => [.text (String.ofList chars)]
  | .echo inside _ closed =>
    .openEcho :: (Token.tokensOf inside ++ if closed then [.closeEcho] else [])
  | .statement inside _ closed =>
    .openStatement :: (Token.tokensOf inside ++ if closed then [.closeStatement] else [])
  | .openComment _ => [.flaw (.malformed "unexpected end of comment")]

theorem map_token_ofPiece (piece : Piece) :
    (Token.ofPiece piece).map Lexeme.token = piece.tokens := by
  cases piece with
  | text | openComment => rfl
  | echo inside line closed | statement inside line closed =>
      simp only [Token.ofPiece, Token.ofPiece.tag, tokens, List.map_append, List.map_cons,
        Token.map_token_inTag, List.cons_append]
      cases closed <;> rfl

theorem map_token_ofPage (page : List Char) :
    (Token.ofPage page).map Lexeme.token = (ofPage page).flatMap tokens := by
  unfold Token.ofPage
  rw [List.map_map]
  show ((ofPage page).flatMap Token.ofPiece).map Lexeme.token = _
  rw [List.map_flatMap]
  exact List.flatMap_congr fun piece _ => map_token_ofPiece piece

end Piece

namespace Token

theorem Chunk.isInner {token : Token} {chunk after : List Char} (h : Chunk token chunk after) :
    token.IsInner := by
  cases h <;> trivial

theorem inside_tokensOf (text : List Char) : Inside (tokensOf text) := by
  refine tokensOf_induction (P := fun _ tokens => Inside tokens) ?_ ?_ ?_ ?_ text
  · exact List.forall_mem_nil _
  · exact fun _ _ _ ih => ih
  · exact fun _ _ _ _ _ _ => List.forall_mem_singleton.mpr trivial
  · exact fun _ _ _ chunk ih => List.forall_mem_cons.mpr ⟨chunk.isInner, ih⟩

end Token

open Piece

def pageTokens (line : Nat) (trimmed : Bool) (page : List Char) : List Token :=
  (piecesFrom line trimmed page).flatMap tokens

/-- What stands from the first tag of a page on nests inside some open blocks. -/
inductive NestsFromTag (hidden : String → Prop) (opened : List OpenTag) :
    Option (Char × List Char) → Prop
  | none (spells : Spells hidden opened []) : NestsFromTag hidden opened none
  | unclosed {kind : Char} {body : List Char} (endless : splitTag kind {} body = .none)
    (spells : ∀ line, Spells hidden opened
      ((tagPiece kind (splitOpeningSign body).2 line false).flatMap tokens)) :
    NestsFromTag hidden opened (some (kind, body))
  | closed {kind : Char} {body inside after : List Char}
    (ended : splitTag kind {} body = some (inside, after))
    (spells : ∀ line line', Spells hidden opened
      ((tagPiece kind (Trimming.of kind inside).inside line true).flatMap tokens ++
        pageTokens line' (Trimming.of kind inside).after after)) :
    NestsFromTag hidden opened (some (kind, body))

/-- A page that nests inside some open blocks, whatever text is trimmed at its start. -/
def Nests (hidden : String → Prop) (opened : List OpenTag) (page : List Char) : Prop :=
  NestsFromTag hidden opened (splitText page).2

namespace Nests

variable {opened : List OpenTag} {page body inside after rest : List Char}

theorem textPiece_cases (start stop : Bool) (chars : List Char) (line : Nat) :
    textPiece start stop chars line = [] ∨
      ∃ kept line', textPiece start stop chars line = [.text kept line'] := by
  unfold textPiece
  extract_lets kept line' trimmed
  split
  · exact .inl rfl
  · exact .inr ⟨_, _, rfl⟩

theorem spells_textPiece (start stop : Bool) (chars : List Char) (line : Nat) (more : List Piece)
    (spells : Spells hidden opened (more.flatMap tokens)) :
    Spells hidden opened ((textPiece start stop chars line ++ more).flatMap tokens) := by
  rcases textPiece_cases start stop chars line with empty | ⟨kept, line', text⟩
  · rw [empty, List.nil_append]
    exact spells
  · rw [text]
    exact .text _ spells

theorem spells (h : Nests hidden opened page) (line : Nat) (trimmed : Bool) :
    Spells hidden opened (pageTokens line trimmed page) := by
  unfold Nests at h
  unfold pageTokens
  rw [piecesFrom]
  split
  · next lead found =>
      rw [found] at h
      cases h with
      | none spells =>
          have ends := spells_textPiece trimmed false lead line [] spells
          rwa [List.append_nil] at ends
  · next lead kind rest found =>
      rw [found] at h
      simp only
      split
      · next endless =>
          cases h with
          | unclosed _ spells => exact spells_textPiece _ _ _ _ _ (spells _)
          | closed ended _ => cases endless.symm.trans ended
      · next inside after ended =>
          cases h with
          | unclosed endless _ => cases endless.symm.trans ended
          | closed ended' spells =>
              cases ended.symm.trans ended'
              rw [List.append_assoc]
              refine spells_textPiece _ _ _ _ _ ?_
              rw [List.flatMap_append]
              exact spells _ _

theorem nil (h : Spells hidden opened []) : Nests hidden opened [] :=
  .none h

theorem splitText_cons {c : Char}
    (plain : ∀ d, rest.head? = some d → Segment.opensTag c d = false) :
    (splitText (c :: rest)).2 = (splitText rest).2 := by
  cases rest with
  | nil => rfl
  | cons d rest => simp [splitText, plain d rfl]

theorem char {c : Char} (plain : ∀ d, rest.head? = some d → Segment.opensTag c d = false)
    (h : Nests hidden opened rest) : Nests hidden opened (c :: rest) := by
  unfold Nests
  rw [splitText_cons plain]
  exact h

theorem splitText_tag {kind : Char} (tag : Segment.opensTag '\x7b' kind = true) :
    (splitText ('\x7b' :: kind :: body)).2 = some (kind, body) := by
  simp [splitText, tag]

theorem comment (ended : splitTag '#' {} body = some (inside, after))
    (h : Nests hidden opened after) : Nests hidden opened ('\x7b' :: '#' :: body) := by
  unfold Nests
  rw [splitText_tag rfl]
  exact .closed ended fun line line' => h.spells line' _

theorem echo (ended : splitTag '\x7b' {} body = some (inside, after))
    (shows : Parse.Expressible (Token.tokensOf (Trimming.of '\x7b' inside).inside) →
      Token.Show hidden (Token.tokensOf (Trimming.of '\x7b' inside).inside))
    (h : Parse.Expressible (Token.tokensOf (Trimming.of '\x7b' inside).inside) →
      Nests hidden opened after) : Nests hidden opened ('\x7b' :: '\x7b' :: body) := by
  unfold Nests
  rw [splitText_tag rfl]
  refine .closed ended fun line line' => ?_
  have split : ∀ inside : List Char, (tagPiece '\x7b' inside line true).flatMap tokens =
      .openEcho :: (Token.tokensOf inside ++ [.closeEcho]) := by
    simp [tagPiece, tokens]
  rw [split, List.cons_append, List.append_assoc]
  exact .echo (Token.inside_tokensOf _) shows fun expressible => (h expressible).spells line' _

theorem unclosedEcho (endless : splitTag '\x7b' {} body = none) :
    Nests hidden opened ('\x7b' :: '\x7b' :: body) := by
  unfold Nests
  rw [splitText_tag rfl]
  refine .unclosed endless fun line => ?_
  have split : ∀ inside : List Char, (tagPiece '\x7b' inside line false).flatMap tokens =
      .openEcho :: Token.tokensOf inside := by
    simp [tagPiece, tokens]
  rw [split]
  exact .unclosed (Token.inside_tokensOf _)

theorem statement (ended : splitTag '%' {} body = some (inside, after))
    (h : ∀ line, Spells hidden opened
      (.openStatement :: (Token.tokensOf (Trimming.of '%' inside).inside ++ .closeStatement ::
        pageTokens line (Trimming.of '%' inside).after after))) :
    Nests hidden opened ('\x7b' :: '%' :: body) := by
  unfold Nests
  rw [splitText_tag rfl]
  refine .closed ended fun line line' => ?_
  have split : ∀ inside : List Char, (tagPiece '%' inside line true).flatMap tokens =
      .openStatement :: (Token.tokensOf inside ++ [.closeStatement]) := by
    simp [tagPiece, tokens]
  rw [split, List.cons_append, List.append_assoc]
  exact h line'

end Nests

/-! ### Emitted tags -/

/-- Whether a tag of a kind goes on behind every character of a text. -/
def Passes (kind : Char) (n : Nesting) : List Char → Prop
  | [] => True
  | c :: rest =>
    ((kind == '#' || n.atTop) && c == Segment.closingMark kind) = false ∧
    Passes kind (n.next c) rest

namespace Passes

variable {kind : Char} {n : Nesting} {text : List Char}

theorem append {first second : List Char} (hfirst : Passes kind n first)
    (hsecond : Passes kind (n.after first) second) : Passes kind n (first ++ second) := by
  induction first generalizing n with
  | nil => exact hsecond
  | cons c first ih => exact ⟨hfirst.1, ih hfirst.2 hsecond⟩

theorem of_noMark (h : ∀ c ∈ text, c ≠ Segment.closingMark kind) : Passes kind n text := by
  induction text generalizing n with
  | nil => trivial
  | cons c text ih =>
      refine ⟨?_, ih fun d hd => h d (List.mem_cons_of_mem _ hd)⟩
      simp [h c List.mem_cons_self]

theorem of_run? {m : Nesting} (noComment : kind ≠ '#') (h : n.run? text = some m) :
    Passes kind (n.under 1) text := by
  induction text generalizing n with
  | nil => trivial
  | cons c text ih =>
      obtain ⟨between, step, rest⟩ := Option.bind_eq_some_iff.mp h
      refine ⟨?_, ?_⟩
      · simp [Nesting.atTop, Nesting.under, noComment]
      · rw [Nesting.next_of_step? (Nesting.step?_under step 1)]
        exact ih rest

theorem splitTag_append (rest : List Char) (h : Passes kind n text) :
    splitTag kind n (text ++ rest) =
      (splitTag kind (n.after text) rest).map fun (inside, after) => (text ++ inside, after) := by
  induction text generalizing n with
  | nil => cases splitTag kind n rest <;> simp [Nesting.after]
  | cons c text ih =>
      have later := ih h.2
      rw [List.cons_append]
      cases behind : text ++ rest with
      | nil =>
          obtain ⟨rfl, rfl⟩ := List.append_eq_nil_iff.mp behind
          rfl
      | cons d behind' =>
          rw [splitTag, h.1, Bool.false_and, if_neg Bool.false_ne_true, ← behind, later]
          simp [Nesting.after, Function.comp_def]

end Passes

theorem Contained.closed {text : List Char} (h : Contained text) :
    Quotation.after .outside text = .outside := by
  have reached := Nesting.quotation_after {} text
  rw [Nesting.after_of_run? h] at reached
  exact reached.symm

theorem splitTag_emitted {kind : Char} {content : List Char} (after : List Char)
    (passes : Passes kind {} content) (contained : Contained content)
    (noBlank : ' ' ≠ Segment.closingMark kind) :
    splitTag kind {} (' ' :: (content ++ ' ' :: Segment.closingMark kind :: '\x7d' :: after)) =
      some (' ' :: (content ++ [' ']), after) := by
  have blank : Passes kind {} [' '] := Passes.of_noMark (by simpa using noBlank)
  have inside : Passes kind {} (' ' :: (content ++ [' '])) := by
    refine ⟨blank.1, Passes.append passes ?_⟩
    rw [show Nesting.next {} ' ' = {} from rfl, Nesting.after_of_run? contained]
    exact blank
  have reached : Nesting.after {} (' ' :: (content ++ [' '])) = {} := by
    have whole : Contained ([' '] ++ (content ++ [' '])) :=
      Contained.append rfl (Contained.append contained rfl)
    exact Nesting.after_of_run? whole
  have split := inside.splitTag_append (Segment.closingMark kind :: '\x7d' :: after)
  rw [reached] at split
  rw [List.cons_append, List.append_assoc] at split
  rw [show ' ' :: (content ++ ' ' :: Segment.closingMark kind :: '\x7d' :: after) =
    ' ' :: (content ++ ([' '] ++ Segment.closingMark kind :: '\x7d' :: after)) from rfl, split]
  simp [splitTag, Nesting.atTop]

theorem trimming_emitted (kind : Char) (content : List Char) :
    Trimming.of kind (' ' :: (content ++ [' '])) = ⟨false, ' ' :: (content ++ [' ']), false⟩ := by
  simp [Trimming.of, splitOpeningSign]

theorem delimits_blank (rest : List Char) : Delimits (' ' :: rest) :=
  Delimits.cons rest (by decide) (by decide)

theorem tokensOf_emitted {content : List Char} (contained : Contained content) :
    Token.tokensOf (' ' :: (content ++ [' '])) = Token.tokensOf content := by
  rw [Token.tokensOf_blank rfl]
  rcases Token.tokensOf_append contained.closed (delimits_blank []) with ⟨_, -, same⟩ | ⟨-, same⟩
  · exact same
  · rw [same]
    exact List.append_nil _

namespace Nests

variable {opened : List OpenTag} {content rest : List Char}

theorem emittedEcho (passes : Passes '\x7b' {} content) (contained : Contained content)
    (shows : Token.Show hidden (Token.tokensOf content)) (h : Nests hidden opened rest) :
    Nests hidden opened ((Tag.echo content).print ++ rest) := by
  have ended := splitTag_emitted rest passes contained (by decide)
  have same : (Tag.echo content).print ++ rest =
      '\x7b' :: '\x7b' :: ' ' :: (content ++ ' ' :: '\x7d' :: '\x7d' :: rest) := by
    simp [Tag.print]
  rw [same]
  refine echo ended (fun _ => ?_) fun _ => h
  rw [trimming_emitted, tokensOf_emitted contained]
  exact shows

theorem piecesFrom_closed {page lead body inside after : List Char} {kind : Char}
    (found : splitText page = (lead, some (kind, body)))
    (ended : splitTag kind {} body = some (inside, after)) (line : Nat) (trimmed : Bool) :
    ∃ tagLine line', piecesFrom line trimmed page =
      textPiece trimmed (Trimming.of kind inside).before lead line ++
        tagPiece kind (Trimming.of kind inside).inside tagLine true ++
        piecesFrom line' (Trimming.of kind inside).after after := by
  rw [piecesFrom]
  split
  · next found' => cases found.symm.trans found'
  · next found' =>
      cases found.symm.trans found'
      simp only
      split
      · next endless => cases ended.symm.trans endless
      · next ended' =>
          cases ended.symm.trans ended'
          exact ⟨_, _, rfl⟩

theorem pageTokens_statement (rest : List Char) (passes : Passes '%' {} content)
    (contained : Contained content) (line : Nat) (trimmed : Bool) :
    ∃ line', pageTokens line trimmed ((Tag.statement content).print ++ rest) =
      .openStatement :: (Token.tokensOf content ++ .closeStatement :: pageTokens line'
        false rest) := by
  have ended := splitTag_emitted rest passes contained (by decide)
  have same : (Tag.statement content).print ++ rest =
      '\x7b' :: '%' :: ' ' :: (content ++ ' ' :: '%' :: '\x7d' :: rest) := by
    simp [Tag.print]
  rw [same]
  have found : splitText ('\x7b' :: '%' :: ' ' :: (content ++ ' ' :: '%' :: '\x7d' :: rest)) =
      ([], some ('%', ' ' :: (content ++ ' ' :: '%' :: '\x7d' :: rest))) := rfl
  obtain ⟨tagLine, line', pieces⟩ := piecesFrom_closed found ended line trimmed
  refine ⟨line', ?_⟩
  unfold pageTokens
  rw [pieces, trimming_emitted, List.flatMap_append, List.flatMap_append]
  simp [textPiece, tagPiece, tokens, tokensOf_emitted contained]

theorem emittedStatement (passes : Passes '%' {} content) (contained : Contained content)
    (h : ∀ line, Spells hidden opened
      (.openStatement :: (Token.tokensOf content ++ .closeStatement :: pageTokens line
        false rest))) :
    Nests hidden opened ((Tag.statement content).print ++ rest) := by
  have ended := splitTag_emitted rest passes contained (by decide)
  have same : (Tag.statement content).print ++ rest =
      '\x7b' :: '%' :: ' ' :: (content ++ ' ' :: '%' :: '\x7d' :: rest) := by
    simp [Tag.print]
  rw [same]
  refine statement ended fun line => ?_
  rw [trimming_emitted, tokensOf_emitted contained]
  exact h line

end Nests

end ThemeTemplates
