/-!
# String literals

A literal runs from a quotation mark to the next mark of the same kind, and a backslash makes the
character after it part of the literal. `Quotation` is the state of a reader that passes over text
with such literals in it. `encodeLiteral` writes a text as one single-quoted literal and
`decodeLiteral` reads it back.
-/

namespace ThemeTemplates

def isQuote (c : Char) : Bool :=
  c == '\'' || c == '"'

/-- Where a reader stands with respect to string literals. -/
inductive Quotation where
  | outside
  /-- In a literal that ends with `mark`; `escaped` right after a backslash. -/
  | inside (mark : Char) (escaped : Bool)
deriving DecidableEq, Repr

namespace Quotation

def next : Quotation → Char → Quotation
  | outside, c => if isQuote c then inside c false else outside
  | inside mark true, _ => inside mark false
  | inside mark false, c =>
    if c == '\\' then inside mark true
    else if c == mark then outside
    else inside mark false

def after (q : Quotation) (text : List Char) : Quotation :=
  text.foldl next q

end Quotation

def escapeLiteral : List Char → List Char
  | [] => []
  | c :: rest =>
    if c == '\\' || c == '\'' then '\\' :: c :: escapeLiteral rest else c :: escapeLiteral rest

def encodeLiteral (text : List Char) : List Char :=
  '\'' :: (escapeLiteral text ++ ['\''])

/-- Reads the inside of a single-quoted literal up to its closing mark, and what follows the
mark. -/
def decodeLiteralBody : List Char → Option (List Char × List Char)
  | [] => none
  | ['\\'] => none
  | '\\' :: c :: rest => (decodeLiteralBody rest).map fun (text, after) => (c :: text, after)
  | '\'' :: rest => some ([], rest)
  | c :: rest => (decodeLiteralBody rest).map fun (text, after) => (c :: text, after)

/-- Reads a single-quoted literal at the start of a text: its content and what follows it. -/
def decodeLiteral : List Char → Option (List Char × List Char)
  | '\'' :: rest => decodeLiteralBody rest
  | _ => none

end ThemeTemplates
