import ThemeTemplates.Loop.Kind
import ThemeTemplates.Loop.Metadata

/-!
# The loop stack

A root render and the partials it renders share one stack of open loops. The frame beneath a frame
is its parent, so a loop in a partial still sees the loop that the partial stands in. A checkpoint
names the open frames at one moment; a render must leave the stack where it found it.
-/

namespace ThemeTemplates

structure LoopFrame where
  /-- Tells this frame from every other one of the same stack. -/
  id : Nat
  kind : LoopKind
  items : List Data
  /-- Where the loop stands; nowhere before its first item. -/
  position : Option Nat
  /-- The item to reinstate when the loop is closed. -/
  restore : Data

namespace LoopFrame

def index (frame : LoopFrame) : Nat :=
  frame.position.getD 0

def current? (frame : LoopFrame) : Option Data :=
  frame.position.bind fun index => frame.items[index]?

/-- How many items the loop has reached, which is also the position of the next one. -/
def iteration (frame : LoopFrame) : Nat :=
  match frame.position with
  | some index => index + 1
  | none => 0

def metadata (frame : LoopFrame) (depth : Nat) (parent : Option LoopMetadata) : LoopMetadata where
  index := frame.index
  iteration := frame.iteration
  remaining := frame.items.length - (frame.index + 1)
  count := frame.items.length
  first := frame.index == 0
  last := decide (frame.items.length ≤ frame.index + 1)
  even := frame.iteration % 2 == 0
  odd := frame.iteration % 2 == 1
  depth := depth
  parent := parent

end LoopFrame

inductive LoopStackError where
  /-- A step or a close without an open loop. -/
  | noOpenFrame (kind : LoopKind)
  /-- A step or a close for a loop of another kind than the innermost. -/
  | kindMismatch (expected found : LoopKind)
  | exhausted (kind : LoopKind) (count : Nat)
  /-- A render that did not leave the stack as it found it. -/
  | unbalanced (expected found : Nat)
deriving DecidableEq, Repr

def LoopStackError.message : LoopStackError → String
  | noOpenFrame kind => s!"no open loop frame (expected one opened by @{kind.name})"
  | kindMismatch expected found =>
    s!"@end{expected.name} closed a frame opened by @{found.name}"
  | exhausted kind count => s!"advanced past the last of {count} items in @{kind.name} frame"
  | unbalanced expected found =>
    s!"render left the loop stack at depth {found}, expected {expected}"

structure LoopStack where
  frames : List LoopFrame := []
  /-- The identity of the frame opened last. -/
  lastId : Nat := 0

/-- The identity of a stack at one moment: its depth and its innermost frame. -/
structure Checkpoint where
  depth : Nat
  top : Option Nat
deriving DecidableEq, Repr

namespace LoopStack

def empty : LoopStack := {}

def depth (stack : LoopStack) : Nat :=
  stack.frames.length

def isEmpty (stack : LoopStack) : Bool :=
  stack.frames.isEmpty

def top? (stack : LoopStack) : Option LoopFrame :=
  stack.frames.head?

def parent? (stack : LoopStack) : Option LoopFrame :=
  stack.frames.tail.head?

def metadataOf : List LoopFrame → Option LoopMetadata
  | [] => none
  | frame :: outer => some (frame.metadata (outer.length + 1) (metadataOf outer))

def metadata? (stack : LoopStack) : Option LoopMetadata :=
  metadataOf stack.frames

def push (stack : LoopStack) (kind : LoopKind) (items : List Data) (restore : Data) : LoopStack :=
  let id := stack.lastId + 1
  { frames := { id, kind, items, position := none, restore } :: stack.frames, lastId := id }

def topOfKind (stack : LoopStack) (kind : LoopKind) :
    Except LoopStackError (LoopFrame × List LoopFrame) :=
  match stack.frames with
  | [] => .error (.noOpenFrame kind)
  | frame :: outer =>
    if frame.kind == kind then .ok (frame, outer) else .error (.kindMismatch kind frame.kind)

def advance (stack : LoopStack) (kind : LoopKind) : Except LoopStackError LoopStack := do
  let (frame, outer) ← stack.topOfKind kind
  if frame.iteration < frame.items.length then
    return { stack with frames := { frame with position := some frame.iteration } :: outer }
  else
    throw (.exhausted kind frame.items.length)

def pop (stack : LoopStack) (kind : LoopKind) :
    Except LoopStackError (LoopFrame × LoopStack) := do
  let (frame, outer) ← stack.topOfKind kind
  return (frame, { stack with frames := outer })

def checkpoint (stack : LoopStack) : Checkpoint where
  depth := stack.depth
  top := stack.top?.map LoopFrame.id

def verify (stack : LoopStack) (mark : Checkpoint) : Except LoopStackError Unit :=
  if stack.checkpoint = mark then .ok () else .error (.unbalanced mark.depth stack.depth)

def unwind (stack : LoopStack) (mark : Checkpoint) : LoopStack :=
  { stack with frames := stack.frames.drop (stack.depth - mark.depth) }

end LoopStack

end ThemeTemplates
