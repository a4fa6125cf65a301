import ThemeTemplates.Argument.Iteration
import ThemeTemplates.Directive.Basic
import ThemeTemplates.Source.Segment

/-!
# Expansion

Replaces the directives of a source with the code their expanders emit. Blocks must nest; the first
directive that is unknown, out of place or refuses its arguments stops the expansion. Line numbers
are kept: a directive whose arguments span lines is followed by a comment with the missing line
breaks.
-/

namespace ThemeTemplates

/-- A block directive whose end has not been met. -/
structure OpenBlock where
  group : String
  directive : String
  line : Nat
deriving DecidableEq, Repr

namespace OpenBlock

def outOfPlace (directive group : String) : List OpenBlock → CompileError
  | [] => .unbalanced directive (.noOpenBlock group)
  | innermost :: _ =>
    .unbalanced directive (.otherBlock group innermost.directive innermost.line)

def step (blocks : List OpenBlock) (directive : String) (role : Role) (line : Nat) :
    Except CompileError (List OpenBlock) :=
  match role with
  | .inline => .ok blocks
  | .opens group => .ok ({ group, directive, line } :: blocks)
  | .continues group =>
    match blocks with
    | block :: _ =>
      if block.group == group then .ok blocks else .error (outOfPlace directive group blocks)
    | [] => .error (outOfPlace directive group blocks)
  | .closes group =>
    match blocks with
    | block :: outer =>
      if block.group == group then .ok outer else .error (outOfPlace directive group blocks)
    | [] => .error (outOfPlace directive group blocks)

end OpenBlock

namespace Segment

/-- Gives each directive that accepts a bare iteration the one that follows it, if any does. -/
def takeBareIterations (registry : Registry) : List Segment → List Segment
  | directive name [] line :: verbatim text :: rest =>
    let taken? :=
      if (registry.find? name).any (·.bareIteration) then splitBareIteration text else none
    match taken? with
    | some (taken, remaining) =>
      directive name taken line :: verbatim remaining :: takeBareIterations registry rest
    | none => directive name [] line :: verbatim text :: takeBareIterations registry rest
  | segment :: rest => segment :: takeBareIterations registry rest
  | [] => []

/-- A comment with the line breaks that `code` lacks against the arguments it stands for. -/
def padding (args code : List Char) : List Char :=
  match lineBreaks args - lineBreaks code with
  | 0 => []
  | missing => ['{', '#'] ++ List.replicate missing '\n' ++ ['#', '}']

/-- The code for one directive and the blocks open after it. The directive must be known, then in
its place, then content with its arguments. -/
def expandDirective (registry : Registry) (blocks : List OpenBlock) (name : String)
    (args : List Char) (line : Nat) : Except CompileError (List OpenBlock × List Char) :=
  match registry.find? name with
  | none => .error (.unknownDirective name)
  | some entry => do
    let blocks ← OpenBlock.step blocks name entry.role line
    return (blocks, ← entry.expand args)

/-- The code for some segments, inside the blocks that are open before them. -/
def expandFrom (registry : Registry) :
    List OpenBlock → List Segment → Except LocatedError (List Char)
  | [], [] => .ok []
  | block :: _, [] =>
    .error
      { line := block.line, error := .unbalanced block.directive (.neverClosed block.line) }
  | blocks, verbatim text :: rest => do
    return text ++ (← expandFrom registry blocks rest)
  | blocks, directive name args line :: rest =>
    match expandDirective registry blocks name args line with
    | .error error => .error { line, error }
    | .ok (blocks, code) => do
      return code ++ padding args code ++ (← expandFrom registry blocks rest)

end Segment

def expand (registry : Registry) (source : List Char) : Except LocatedError (List Char) := do
  let segments ← Segment.scan source
  Segment.expandFrom registry [] (Segment.takeBareIterations registry segments)

end ThemeTemplates
