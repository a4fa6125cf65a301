import ThemeTemplates.Name

/-!
# Template files

A template lies under a root: the dots of its name separate directories, and an extension follows.
`pathFor` builds the path of a name and `nameFor` reads the name off a path.
-/

namespace ThemeTemplates

namespace Files

/-- A path followed by one more segment. A segment that starts with a slash stands for itself. -/
def push (path segment : List Char) : List Char :=
  match segment with
  | '/' :: _ => segment
  | segment =>
    match path.getLast? with
    | none | some '/' => path ++ segment
    | some _ => path ++ '/' :: segment

def segments (extension : List Char) : List Char → List (List Char)
  | [] => [extension]
  | c :: rest =>
    if c == '.' then [] :: segments extension rest
    else
      match segments extension rest with
      | [] => [[c]]
      | segment :: later => (c :: segment) :: later

def pathFor (root extension name : List Char) : List Char :=
  (segments extension name).foldl push root

def relativeTo (root path : List Char) : Option (List Char) :=
  match root.isPrefixOf? path with
  | none => none
  | some rest =>
    if root.isEmpty || root.getLast? == some '/' || rest.isEmpty || rest.head? == some '/' then
      some (rest.dropWhile (· == '/'))
    else none

/-- A path without the steps in front that lead nowhere: empty ones and single dots. -/
def dropIdleSteps : List Char → List Char
  | '/' :: rest => dropIdleSteps rest
  | '.' :: '/' :: rest => dropIdleSteps rest
  | ['.'] => []
  | path => path

/-- A path from the place of the tree, without the steps at its two ends that lead nowhere. -/
def fromTree (path : List Char) : List Char :=
  (dropIdleSteps (dropIdleSteps path).reverse).reverse

/-- The name of the template in a file under a root, if the file has the extension. -/
def nameFor (root extension path : List Char) : Option (List Char) := do
  let relative ← relativeTo root path
  let stem ← extension.isSuffixOf? relative
  return dotted stem

end Files

end ThemeTemplates
