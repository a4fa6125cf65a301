import ThemeTemplates.Proofs.Page.Relabelling
import ThemeTemplates.Proofs.Page.Lexing

/-!
# Tokens further down a page

What stands further down a page has the same tokens on later lines. Behind the last line that is
told apart all lines are one.
-/

namespace ThemeTemplates

def shiftedLine (more line : Nat) : Nat :=
  min (line + more) Token.lastLine

theorem shiftedLine_shiftedLine (first second line : Nat) :
    shiftedLine second (shiftedLine first line) = shiftedLine 0 (line + first + second) := by
  unfold shiftedLine
  omega

namespace Token

theorem inTag_shift (more bound before line : Nat) (chars : List Char) :
    inTag bound (before + more) (line + more) chars =
      (inTag bound before line chars).map (Lexeme.relabel (· + more)) := by
  induction bound generalizing before line chars with
  | zero => rfl
  | succ bound ih =>
      have later : ∀ line breaks, line + more + breaks = line + breaks + more := by omega
      cases kept : chars.dropWhile isAsciiBlank with
      | nil => simp only [inTag, kept, List.map_nil]
      | cons c rest =>
          rcases read_cases c rest with ⟨reason, after, first⟩ | ⟨token, chunk, after,
            first, -, chunked⟩
          · cases reason <;> simp only [inTag, kept, first, later, List.map_cons, List.map_nil,
              Lexeme.relabel]
          · simp only [inTag, kept, first]
            cases chunked <;> simp only [later, ih, List.map_cons, Lexeme.relabel]

theorem ofPiece_echo_shift (more line : Nat) (inside : List Char) :
    ofPiece (.echo inside (line + more) true) =
      (ofPiece (.echo inside line true)).map (Lexeme.relabel (· + more)) := by
  have ends : line + more + lineBreaks inside = line + lineBreaks inside + more := by omega
  simp [ofPiece, ofPiece.tag, inTag_shift, Lexeme.relabel, ends]

def ofPieces (pieces : List Piece) : List Lexeme :=
  (pieces.flatMap ofPiece).map (Lexeme.relabel (shiftedLine 0))

theorem ofPage_eq (page : List Char) : ofPage page = ofPieces (Piece.ofPage page) :=
  rfl

theorem ofPieces_append (first second : List Piece) :
    ofPieces (first ++ second) = ofPieces first ++ ofPieces second := by
  simp [ofPieces]

theorem ofPieces_echo_shift (more line : Nat) (inside : List Char) :
    ofPieces [.echo inside (line + more) true] =
      (ofPieces [.echo inside line true]).map (Lexeme.relabel (shiftedLine more)) := by
  have lines : shiftedLine 0 ∘ (· + more) = shiftedLine more ∘ shiftedLine 0 := by
    funext line
    exact (shiftedLine_shiftedLine 0 more line).symm
  simp only [ofPieces, List.flatMap_cons, List.flatMap_nil, List.append_nil, ofPiece_echo_shift,
    List.map_map]
  refine List.map_congr_left fun lexeme _ => ?_
  exact congrArg (fun f => lexeme.relabel f) lines

end Token

end ThemeTemplates
