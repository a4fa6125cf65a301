/-!
# Emitted code

What directives put into the expanded source: tags of the page language, each written with one space
inside its delimiters.
-/

namespace ThemeTemplates

/-- A tag of the page language, without its delimiters. -/
inductive Tag where
  | echo (expression : List Char)
  | statement (content : List Char)
deriving DecidableEq, Repr

def Tag.print : Tag → List Char
  | echo expression => ['{', '{', ' '] ++ expression ++ [' ', '}', '}']
  | statement content => ['{', '%', ' '] ++ content ++ [' ', '%', '}']

def printTags (tags : List Tag) : List Char :=
  tags.flatMap Tag.print

end ThemeTemplates
