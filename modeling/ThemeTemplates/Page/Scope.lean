import ThemeTemplates.Page.Value

/-!
# Scopes

The variables of a page that is being evaluated: those it was given, and over them one frame for the
page itself and one for each open `for` loop and block. Setting a variable sets it in the innermost
frame.
-/

namespace ThemeTemplates

structure Frame where
  locals : Fields Value := []
  /-- The state of the loop the frame belongs to. -/
  loop : Option Value := none

/-- The value of a variable of a frame. The frame of a loop has its state under `loop`. -/
def Frame.find? (frame : Frame) (name : String) : Option Value :=
  match frame.locals.find? name with
  | some value => some value
  | none => if name == "loop" then frame.loop else none

structure Scope where
  frames : List Frame := [{}]
  given : Fields Value
  /-- The weight of the pages that include this one. -/
  included : Nat := 0

namespace Scope

/-- How deep the evaluation may go, counting each frame once and each inclusion ten times. -/
def depthLimit : Nat := 500
def inclusionWeight : Nat := 10

def depth (scope : Scope) : Nat :=
  scope.included + scope.frames.length

def tooDeep (scope : Scope) : Bool :=
  depthLimit < scope.depth

def find? (scope : Scope) (name : String) : Option Value :=
  (scope.frames.findSome? fun frame => frame.find? name).or (scope.given.find? name)

def loopDepth (scope : Scope) : Nat :=
  match scope.frames.findSome? Frame.loop with
  | some (.forState _ _ depth _ _) => depth + 1
  | _ => 0

def set (scope : Scope) (name : String) (value : Value) : Scope :=
  match scope.frames with
  | [] => { scope with frames := [{ locals := Fields.insert [] name value }] }
  | frame :: outer =>
    { scope with frames := { frame with locals := frame.locals.insert name value } :: outer }

def enter (scope : Scope) (frame : Frame) : Scope :=
  { scope with frames := frame :: scope.frames }

def leave (scope : Scope) : Scope :=
  { scope with frames := scope.frames.tail }

def names (scope : Scope) : List String :=
  scope.frames.flatMap (fun frame => frame.locals.keys) ++ scope.given.keys

def isInherited (name : String) : Bool :=
  name != "loop" && !("__".toList.isPrefixOf name.toList)

def inheritable (scope : Scope) : ViewData :=
  Fields.ofList <| scope.names.filterMap fun name =>
    if isInherited name then
      (scope.find? name).bind fun value =>
        if value.isData then some (name, value.toData) else none
    else none

end Scope

end ThemeTemplates
