import ThemeTemplates.Source.Segment

/-!
# Pieces of a page

An expanded source is text with tags in it: echoes, statements and comments. A comment ends at the
first closer; the other tags end at the first closer outside literals and outside the brackets
opened in the tag. A minus sign just inside a delimiter takes the white space beyond it away.
-/

namespace ThemeTemplates

/-- A piece of a page with the line it starts on. -/
inductive Piece where
  | text (chars : List Char) (line : Nat)
  /-- The inside of an echo; `closed` unless the page ends in it. -/
  | echo (inside : List Char) (line : Nat) (closed : Bool)
  | statement (inside : List Char) (line : Nat) (closed : Bool)
  | openComment (line : Nat)
deriving DecidableEq, Repr

namespace Piece

/-- Cuts a page at its first tag: the text before it, and the second character of the tag's opener
with what follows. -/
def splitText : List Char → List Char × Option (Char × List Char)
  | [] => ([], none)
  | [c] => ([c], none)
  | c :: d :: rest =>
    if Segment.opensTag c d then ([], some (d, rest))
    else
      let (lead, found) := splitText (d :: rest)
      (c :: lead, found)

/-- Cuts a page at the end of the tag it stands in: the rest of the tag and what follows its
closer. -/
def splitTag (kind : Char) (n : Nesting) : List Char → Option (List Char × List Char)
  | [] => none
  | [_] => none
  | c :: d :: rest =>
    if (kind == '#' || n.atTop) && c == Segment.closingMark kind && d == '}' then some ([], rest)
    else (splitTag kind (n.next c) (d :: rest)).map fun (inside, after) => (c :: inside, after)

theorem length_of_splitText {page lead rest : List Char} {kind : Char}
    (h : splitText page = (lead, some (kind, rest))) : rest.length + 2 ≤ page.length := by
  fun_induction splitText page generalizing lead with
  | case1 => simp at h
  | case2 => simp at h
  | case3 =>
      simp only [Prod.mk.injEq, Option.some.injEq] at h
      simp [h.2.2]
  | case4 c d tail _ inner found split ih =>
      simp only [Prod.mk.injEq] at h
      obtain ⟨rfl, rfl⟩ := h
      have := ih split
      simp only [List.length_cons] at this ⊢
      omega

theorem length_of_splitTag {kind : Char} {n : Nesting} {page inside after : List Char}
    (h : splitTag kind n page = some (inside, after)) : after.length ≤ page.length := by
  fun_induction splitTag kind n page generalizing inside with
  | case1 => simp at h
  | case2 => simp at h
  | case3 =>
      simp only [Option.some.injEq, Prod.mk.injEq] at h
      simp only [h.2.symm, List.length_cons]
      omega
  | case4 c d tail _ _ ih =>
      simp only [Option.map_eq_some_iff, Prod.exists, Prod.mk.injEq] at h
      obtain ⟨inside', after', found, rfl, rfl⟩ := h
      have := ih found
      simp only [List.length_cons] at this ⊢
      omega

/-- What the signs just inside the delimiters of a tag ask for, and the tag without them. -/
structure Trimming where
  before : Bool
  inside : List Char
  after : Bool

/-- Whether a tag asks for white space in front of it to be dropped, and the tag without the sign
that does. -/
def splitOpeningSign (inside : List Char) : Bool × List Char :=
  match inside with
  | '-' :: rest => (true, rest)
  | '+' :: rest => (false, rest)
  | inside => (false, inside)

/-- Reads the signs of a tag. A plus sign stands for itself at the end of an echo. -/
def Trimming.of (kind : Char) (inside : List Char) : Trimming :=
  let (before, inside) := splitOpeningSign inside
  match inside.reverse with
  | '-' :: rest => ⟨before, rest.reverse, true⟩
  | '+' :: rest => if kind == '{' then ⟨before, inside, false⟩ else ⟨before, rest.reverse, false⟩
  | _ => ⟨before, inside, false⟩

/-- The piece of a text from a line on, without white space at its start and its end if so asked. -/
def textPiece (start stop : Bool) (chars : List Char) (line : Nat) : List Piece :=
  let kept := if start then chars.dropWhile isBlank else chars
  let line := line + (lineBreaks chars - lineBreaks kept)
  let kept := if stop then (kept.reverse.dropWhile isBlank).reverse else kept
  if kept.isEmpty then [] else [text kept line]

def tagPiece (kind : Char) (inside : List Char) (line : Nat) (closed : Bool) : List Piece :=
  if kind == '{' then [echo inside line closed]
  else if kind == '%' then [statement inside line closed]
  else if closed then [] else [openComment line]

/-- The pieces of a page from a line on; `trimmed` when white space at its start is not kept. -/
def piecesFrom (line : Nat) (trimmed : Bool) (page : List Char) : List Piece :=
  match _found : splitText page with
  | (lead, none) => textPiece trimmed false lead line
  | (lead, some (kind, rest)) =>
    let tagLine := line + lineBreaks lead
    match _ended : splitTag kind {} rest with
    | none =>
      let (before, inside) := splitOpeningSign rest
      textPiece trimmed before lead line ++ tagPiece kind inside tagLine false
    | some (inside, after) =>
      let trimming := Trimming.of kind inside
      textPiece trimmed trimming.before lead line ++
        tagPiece kind trimming.inside tagLine true ++
        piecesFrom (tagLine + lineBreaks inside) trimming.after after
termination_by page.length
decreasing_by
  have := length_of_splitText _found
  have := length_of_splitTag _ended
  omega

def ofPage (page : List Char) : List Piece :=
  piecesFrom 1 false page

end Piece

end ThemeTemplates
