import ThemeTemplates.Files.Path
import ThemeTemplates.Files.Tree
import ThemeTemplates.Library.Loader

/-!
# Templates in files

Templates under ordered roots of a file tree. The first root that has a template wins, so a child
theme listed before its parent overrides single templates.
-/

namespace ThemeTemplates

/-- The roots to search, in order, and the extension of template files. -/
structure FileLoader where
  tree : FileTree
  /-- Paths from the place of the tree. A root elsewhere is put into the tree first and goes by its
  path there. -/
  roots : List String
  extension : String

namespace FileLoader

def pathFor (loader : FileLoader) (root template : String) : List Char :=
  Files.pathFor root.toList loader.extension.toList template.toList

def find? (loader : FileLoader) (template : String) : Option (List Char × ByteArray) :=
  loader.roots.findSome? fun root =>
    let path := loader.pathFor root template
    (loader.tree.readAt? path).map fun content => (path, content)

def locate (loader : FileLoader) (template : String) : Option (List Char) :=
  (loader.find? template).map fun found => Files.fromTree found.1

def rootPaths (loader : FileLoader) : List (List Char) :=
  loader.roots.map fun root => Files.fromTree root.toList

def load (loader : FileLoader) (template : String) : Except Failure (Option String) :=
  match loader.find? template with
  | none => .ok none
  | some (_, content) =>
    match String.fromUTF8? content with
    | some source => .ok (some source)
    | none => .error (.unreadable template "stream did not contain valid UTF-8")

def namesUnder (loader : FileLoader) (root : String) : List String :=
  match loader.tree.resolve? root.toList with
  | none => []
  | some directory =>
    if !loader.tree.isDirectory directory then []
    else
      (loader.tree.filesUnder directory).filterMap fun file =>
        let path := Files.push root.toList (String.intercalate "/" file).toList
        (Files.nameFor root.toList loader.extension.toList path).map String.ofList

def names (loader : FileLoader) : List String :=
  Fields.keys (Fields.ofList ((loader.roots.flatMap loader.namesUnder).map fun name => (name, ())))

def toLoader (loader : FileLoader) : Loader where
  load := loader.load
  list := .ok loader.names

end FileLoader

end ThemeTemplates
