import ThemeTemplates.Command

/-!
# Command line

`render NAME [--fixture FILE] [--view]`, `compile NAME` and `check`, over the directories of the
settings or those given by `--templates`.
-/

namespace ThemeTemplates

namespace CommandLine

inductive Request where
  | render (name : String) (fixture : Option String) (view : Bool)
  | compile (name : String)
  | check
deriving DecidableEq, Repr

/-- The words of a command line, sorted into options and the rest. -/
structure Words where
  configuration : Option String := none
  directories : List String := []
  fixture : Option String := none
  view : Bool := false
  verbose : Bool := false
  plain : List String := []

def Words.ofList : List String → Except String Words
  | [] => .ok {}
  | "--config" :: path :: rest => do
    return { ← Words.ofList rest with configuration := some path }
  | "--templates" :: path :: rest => do
    let words ← Words.ofList rest
    return { words with directories := path :: words.directories }
  | "--fixture" :: path :: rest => do return { ← Words.ofList rest with fixture := some path }
  | "--view" :: rest => do return { ← Words.ofList rest with view := true }
  | "--verbose" :: rest | "-v" :: rest => do return { ← Words.ofList rest with verbose := true }
  | word :: rest =>
    if word.startsWith "-" then .error s!"unexpected argument '{word}' found"
    else do
      let words ← Words.ofList rest
      return { words with plain := word :: words.plain }

def Words.request (words : Words) : Except String Request :=
  match words.plain with
  | ["render", name] => .ok (.render name words.fixture words.view)
  | ["compile", name] => .ok (.compile name)
  | ["check"] => .ok .check
  | _ => .error "usage: render NAME [--fixture FILE] [--view] | compile NAME | check"

def variableNames : List String :=
  ["SNAP_THEME", "SNAP_THEME__TEMPLATES_DIRECTORY", "SNAP_THEME__FALLBACK_DIRECTORIES",
    "SNAP_BLADE", "SNAP_BLADE__FILE_EXTENSION", "SNAP_BLADE__DEVELOPMENT_MODE"]

def configurationFile : String := "blade.toml"

def errorReport : List String → String
  | [] => "Error"
  | [text] => s!"Error: {text}"
  | [text, cause] => s!"Error: {text}\n\nCaused by:\n    {cause}"
  | text :: causes =>
    s!"Error: {text}\n\nCaused by:" ++
      String.join (causes.zipIdx.map fun (cause, i) => s!"\n    {i}: {cause}")

/-- What a check of all templates prints, and the error it ends with if some do not compile. -/
def checkOutput (report : CheckReport) : String × Option String :=
  let lines := report.passed.map (fun name => s!"ok {name}\n") ++
    report.failed.map fun (name, failure) => s!"error {name}: {failure.message}\n"
  let listed := String.join lines ++ "\n"
  if report.isOk then (listed ++ s!"Done {report.total} templates compiled\n", none)
  else (listed, some s!"{report.failed.length} of {report.total} templates failed to compile")

def readFile? (path : String) : IO (Option ByteArray) := do
  try
    return some (← IO.FS.readBinFile path)
  catch _ =>
    return none

/-- The files under some directories, each directory under the number of its place. -/
def readRoots (directories : List String) : IO FileTree := do
  let mut files := []
  for (directory, i) in directories.zipIdx do
    try
      let root ← IO.FS.realPath directory
      if ← root.isDir then
        for path in ← root.walkDir do
          if !(← path.isDir) then
            let relative := (path.toString.drop (root.toString.length + 1)).toString
            files := (toString i :: relative.splitOn "/", ← IO.FS.readBinFile path) :: files
    catch _ => pure ()
  return { files := files.reverse }

def conclude (result : Except (List String) String) : IO UInt32 := do
  match result with
  | .ok output =>
    IO.print output
    return 0
  | .error texts =>
    IO.eprintln (errorReport texts)
    return 1

def readFixture : Option String → IO (Except CommandError Fixture)
  | none => return .ok {}
  | some path => return Command.readFixture path (← readFile? path)

def perform (settings : Settings) : Request → IO UInt32
  | request => do
    let tree ← readRoots settings.roots
    let loader : FileLoader :=
      { tree, roots := settings.roots.zipIdx.map fun (_, i) => toString i
        extension := settings.extension }
    let fixturePath :=
      match request with
      | .render _ fixture _ => fixture
      | _ => none
    match ← readFixture fixturePath with
    | .error error => conclude (.error error.chain)
    | .ok fixture =>
      let engine := Command.engine settings loader.toLoader fixture
      match request with
      | .render name _ view =>
        conclude ((Command.render engine name view fixture.data).1.mapError CommandError.chain)
      | .compile name =>
        let code := (Command.compile engine name).1.mapError CommandError.chain
        conclude (code.map fun code => String.ofList code ++ "\n")
      | .check =>
        match (Command.check engine).1 with
        | .error error => conclude (.error error.chain)
        | .ok report =>
          let (output, error) := checkOutput report
          IO.print output
          match error with
          | none => return 0
          | some text => conclude (.error [text])

end CommandLine

end ThemeTemplates

open ThemeTemplates CommandLine in
def main (args : List String) : IO UInt32 := do
  match (do let words ← Words.ofList args; return (words, ← words.request)) with
  | .error text =>
    IO.eprintln s!"error: {text}"
    return 2
  | .ok (words, request) =>
    let document := (← readFile? (words.configuration.getD configurationFile)).bind String.fromUTF8?
    let environment ← variableNames.filterMapM fun name => do
      return (← IO.getEnv name).map fun value => (name, value)
    match Settings.load document environment with
    | .error failure => conclude (.error (failure.message :: failure.causes))
    | .ok settings => perform (settings.withDirectories words.directories) request
