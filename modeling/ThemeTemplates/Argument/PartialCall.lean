import ThemeTemplates.Directive.Error
import ThemeTemplates.Name
import ThemeTemplates.Text.Nesting

/-!
# Arguments of `@partial`

A quoted name, and at most one data expression after it.
-/

namespace ThemeTemplates

/-- The content of a text that is one quoted literal without its own mark inside. -/
def unquote (text : List Char) : Option (List Char) :=
  match trim text with
  | mark :: rest =>
    match rest.reverse with
    | last :: inner =>
      if isQuote mark && last == mark && !inner.contains mark then some inner.reverse else none
    | [] => none
  | [] => none

/-- A partial and the data it is given. The name is dotted and relative to `partials.`. -/
structure PartialCall where
  name : List Char
  data : Option (List Char)
deriving DecidableEq, Repr

def PartialCall.parse (raw : List Char) : Except CompileError PartialCall :=
  let refuse (reason : Malformation) := .error (.malformed "partial" (String.ofList raw) reason)
  let build (name : List Char) (data : Option (List Char)) :=
    match unquote name with
    | none => refuse .partialNameNotQuoted
    | some name =>
      let name := dotted (stripEnds isSeparator name)
      if name.isEmpty then refuse .partialNameEmpty else .ok { name, data }
  match splitTopLevel ',' (unwrap raw) with
  | [name] => build name none
  | [name, data] => if data.isEmpty then refuse .partialShape else build name (some data)
  | _ => refuse .partialShape

end ThemeTemplates
