import ThemeTemplates.Page.Literal
import ThemeTemplates.Page.Piece

/-!
# Tokens of a page

The words and signs inside tags. What cannot be read becomes a token too, so that a page fails at
the first thing that is wrong with it.
-/

namespace ThemeTemplates

inductive Token where
  | text (s : String)
  | openEcho
  | closeEcho
  | openStatement
  | closeStatement
  | name (s : String)
  | literal (s : String)
  | number (n : Number)
  | sign (s : String)
  | flaw (flaw : PageFlaw)

structure Lexeme where
  token : Token
  line : Nat

namespace Token

def unexpected : Token :=
  flaw (.malformed "unexpected character")

def pairedSigns : List (List Char) :=
  ["//".toList, "**".toList, "==".toList, "!=".toList, ">=".toList, "<=".toList]

def signs : List Char :=
  "+-*/%.,:~=><|()[]\x7b\x7d".toList

def ofLiteral {α : Type} (token : α → Token) : Except PageFlaw α × List Char → Token × List Char
  | (.ok value, after) => (token value, after)
  | (.error reason, after) => (flaw reason, after)

def read (chars : List Char) : Token × List Char :=
  match chars with
  | [] => (unexpected, [])
  | c :: rest =>
    if pairedSigns.contains (chars.take 2) then (sign (String.ofList (chars.take 2)), chars.drop 2)
    else if signs.contains c then (sign c.toString, rest)
    else if isQuote c then ofLiteral literal (Literal.readText c rest)
    else if c.isDigit then ofLiteral number (Literal.readNumber chars)
    else if isWordStart c then
      (name (String.ofList (chars.takeWhile isWordChar)), chars.dropWhile isWordChar)
    else (unexpected, rest)

/-- The tokens inside a tag from a line on, given a bound on their number. The line of a bad escape
is that of the token before it. -/
def inTag : Nat → Nat → Nat → List Char → List Lexeme
  | 0, _, _, _ => []
  | bound + 1, before, line, chars =>
    let line := line + lineBreaks (chars.takeWhile isAsciiBlank)
    match chars.dropWhile isAsciiBlank with
    | [] => []
    | chars =>
      match read chars with
      | (flaw .badEscape, _) => [⟨flaw .badEscape, before⟩]
      | (flaw reason, _) => [⟨flaw reason, line⟩]
      | (token, after) =>
        ⟨token, line⟩ :: inTag bound line (line + (lineBreaks chars - lineBreaks after)) after

def ofPiece : Piece → List Lexeme
  | .text chars line => [⟨text (String.ofList chars), line⟩]
  | .echo inside line closed => tag openEcho closeEcho inside line closed
  | .statement inside line closed => tag openStatement closeStatement inside line closed
  | .openComment line => [⟨flaw (.malformed "unexpected end of comment"), line⟩]
where
  tag (start stop : Token) (inside : List Char) (line : Nat) (closed : Bool) : List Lexeme :=
    ⟨start, line⟩ :: inTag inside.length line line inside ++
      (if closed then [⟨stop, line + lineBreaks inside⟩] else [])

def lastLine : Nat := 65535

def ofPage (page : List Char) : List Lexeme :=
  ((Piece.ofPage page).flatMap ofPiece).map fun lexeme =>
    { lexeme with line := min lexeme.line lastLine }

end Token

end ThemeTemplates
