import ThemeTemplates.Directive.Error
import ThemeTemplates.Text.Nesting

/-!
# Segments of a source

`scan` cuts a template source into directives and the text between them. Tags of the page language
are text, so an `@` inside them is never read as a directive.
-/

namespace ThemeTemplates

inductive Segment where
  /-- Text and page tags, copied as they stand. -/
  | verbatim (text : List Char)
  /-- `@name` with its argument text, parentheses included, and the line of its `@`. -/
  | directive (name : String) (args : List Char) (line : Nat)
deriving DecidableEq, Repr

/-- A compile error and the line it is found on. -/
structure LocatedError where
  line : Nat
  error : CompileError
deriving DecidableEq, Repr

namespace Segment

def prepend (text : List Char) : List Segment → List Segment
  | verbatim following :: rest => verbatim (text ++ following) :: rest
  | segments => verbatim text :: segments

def opensTag (c d : Char) : Bool :=
  c == '{' && (d == '{' || d == '%' || d == '#')

/-- The first of the two characters that end the tag opened by an opening brace and `kind`. -/
def closingMark (kind : Char) : Char :=
  if kind == '{' then '}' else kind

/-- Cuts a text after the end of the page tag it stands in. A comment ends at its first closer,
other tags at their first closer outside literals. -/
def splitTagEnd (kind : Char) (q : Quotation) : List Char → Option (List Char × List Char)
  | [] => none
  | [_] => none
  | c :: d :: rest =>
    if q == .outside && c == closingMark kind && d == '}' then some ([c, d], rest)
    else
      (splitTagEnd kind (if kind == '#' then q else q.next c) (d :: rest)).map
        fun (tag, after) => (c :: tag, after)

theorem length_of_splitTagEnd {kind : Char} {q : Quotation} {text tag after : List Char}
    (h : splitTagEnd kind q text = some (tag, after)) :
    text.length = tag.length + after.length := by
  fun_induction splitTagEnd kind q text generalizing tag with
  | case1 => simp at h
  | case2 => simp at h
  | case3 =>
      simp only [Option.some.injEq, Prod.mk.injEq] at h
      obtain ⟨rfl, rfl⟩ := h
      simp only [List.length_cons, List.length_nil]
      omega
  | case4 _ c d rest _ ih =>
      simp only [Option.map_eq_some_iff, Prod.exists, Prod.mk.injEq] at h
      obtain ⟨tag', after', found, rfl, rfl⟩ := h
      have := ih found
      simp only [List.length_cons] at this ⊢
      omega

/-- The segments of the rest of a source. `line` is the line it starts on; `afterWord` tells whether
the character in front of it belongs to a word, for an `@` inside a word is text. -/
def scanFrom (line : Nat) (afterWord : Bool) (text : List Char) :
    Except LocatedError (List Segment) :=
  match text with
  | [] => .ok []
  | '@' :: '@' :: rest => do
    return verbatim ['@'] :: (← scanFrom line false rest)
  | '@' :: rest =>
    if afterWord || !rest.head?.any isWordStart then do
      return prepend ['@'] (← scanFrom line false rest)
    else
      let name := String.ofList (rest.takeWhile isWordChar)
      let after := rest.dropWhile isWordChar
      match _found : after.dropWhile isSpaceOrTab with
      | '(' :: inside =>
        match _closed : splitAtClose { depth := 1 } inside with
        | some (inner, close, following) => do
          let args := '(' :: (inner ++ [close])
          return directive name args line :: (← scanFrom (line + lineBreaks args) false following)
        | none => .error { line, error := .invalid (.unterminatedArguments name) }
      | _ => do
        return directive name [] line :: (← scanFrom line true after)
  | c :: rest =>
    match _shape : rest with
    | d :: inside =>
      if opensTag c d then
        match _closed : splitTagEnd d .outside inside with
        | some (tag, following) => do
          let tag := c :: d :: tag
          return prepend tag (← scanFrom (line + lineBreaks tag) false following)
        | none => .error { line, error := .invalid (.unclosedTag (String.ofList [c, d])) }
      else do
        return prepend [c] (← scanFrom (line + lineBreaks [c]) (isWordChar c) (d :: inside))
    | [] => .ok [verbatim [c]]
termination_by text.length
decreasing_by
  · simp only [List.length_cons]
    omega
  · simp only [List.length_cons]
    omega
  · have inList := length_of_splitAtClose _closed
    have blanks := length_dropWhile_le isSpaceOrTab (rest.dropWhile isWordChar)
    have word := length_dropWhile_le isWordChar rest
    rw [_found] at blanks
    simp only [List.length_cons] at blanks ⊢
    omega
  · have := length_dropWhile_le isWordChar rest
    simp only [List.length_cons]
    omega
  · have := length_of_splitTagEnd _closed
    simp only [List.length_cons]
    omega
  · simp only [List.length_cons]
    omega

def scan (source : List Char) : Except LocatedError (List Segment) :=
  scanFrom 1 false source

end Segment

end ThemeTemplates
