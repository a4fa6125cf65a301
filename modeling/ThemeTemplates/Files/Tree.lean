/-!
# Trees of files

The files below one place, by the segments of their paths from there. Directories are those that
hold something and those listed as such. Paths are written from the place of the tree: what lies
elsewhere has to be put into the tree first, under a path from there.
-/

namespace ThemeTemplates

abbrev Segments := List String

structure FileTree where
  files : List (Segments × ByteArray)
  directories : List Segments := []

namespace FileTree

def isDirectory (tree : FileTree) (path : Segments) : Bool :=
  path.isEmpty || tree.directories.any path.isPrefixOf ||
    tree.files.any fun file => path.isPrefixOf file.1 && path != file.1

def read? (tree : FileTree) (path : Segments) : Option ByteArray :=
  tree.files.lookup path

/-- Follows the steps of a written path from a directory of the tree, all but the last of which must
lead to directories. Nothing outside the tree is reached. -/
def follow (tree : FileTree) (here : Segments) : List String → Option Segments
  | [] => some here
  | step :: rest =>
    if !tree.isDirectory here then none
    else if step == "" || step == "." then follow tree here rest
    else if step == ".." then
      if here.isEmpty then none else follow tree here.dropLast rest
    else follow tree (here ++ [step]) rest

def splitSlashes : List Char → List (List Char)
  | [] => [[]]
  | c :: rest =>
    if c == '/' then [] :: splitSlashes rest
    else
      match splitSlashes rest with
      | [] => [[c]]
      | step :: later => (c :: step) :: later

/-- What a written path leads to. An absolute path leads out of the tree, also one that would lead
back into it: the tree does not know where its place is. -/
def resolve? (tree : FileTree) (path : List Char) : Option Segments :=
  match path with
  | '/' :: _ => none
  | path => tree.follow [] ((splitSlashes path).map String.ofList)

def isDirectoryAt (tree : FileTree) (path : List Char) : Bool :=
  (tree.resolve? path).any tree.isDirectory

def readAt? (tree : FileTree) (path : List Char) : Option ByteArray :=
  (tree.resolve? path).bind tree.read?

def filesUnder (tree : FileTree) (directory : Segments) : List Segments :=
  tree.files.filterMap fun file => directory.isPrefixOf? file.1

end FileTree

end ThemeTemplates
