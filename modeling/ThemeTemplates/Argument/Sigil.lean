import ThemeTemplates.Text.Blank
import ThemeTemplates.Text.Quotation

/-!
# Sigils

Variables may be written `$post.title` in directive arguments; the page language has no sigils.
-/

namespace ThemeTemplates

def dropSigils (q : Quotation) : List Char → List Char
  | [] => []
  | c :: rest =>
    if q == .outside && c == '$' && rest.head?.any isWordStart then dropSigils q rest
    else c :: dropSigils (q.next c) rest

def pageExpression (text : List Char) : List Char :=
  dropSigils .outside text

end ThemeTemplates
