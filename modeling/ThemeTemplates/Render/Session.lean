import ThemeTemplates.Failure.Basic
import ThemeTemplates.Loop.Stack

/-!
# Render sessions

What a root render and the partials inside it share: the loop stack, the current item, the first
failure that is on its way out, and the number of child renders in progress.
-/

namespace ThemeTemplates

structure Session where
  loops : LoopStack := LoopStack.empty
  /-- The item of the innermost `@loop` or the latest `@setpostdata`. -/
  currentItem : Data
  /-- The first failure since one was taken. -/
  failure : Option Failure := none
  depth : Nat := 0

namespace Session

def depthLimit : Nat := 32

def pushLoop (session : Session) (kind : LoopKind) (items : List Data) : Session :=
  { session with loops := session.loops.push kind items session.currentItem }

def nextLoop (session : Session) (kind : LoopKind) (item : Data) :
    Except LoopStackError Session := do
  let loops ← session.loops.advance kind
  return { session with
    loops
    currentItem := if kind.bindsCurrentItem then item else session.currentItem }

def popLoop (session : Session) (kind : LoopKind) : Except LoopStackError Session := do
  let (frame, loops) ← session.loops.pop kind
  return { session with
    loops
    currentItem := if kind.bindsCurrentItem then frame.restore else session.currentItem }

def record (session : Session) (failure : Failure) : Session :=
  { session with failure := session.failure.or (some failure) }

/-- Begins a child render, if not too many are in progress, and marks the open loops. -/
def enter (session : Session) (template : String) : Except Failure (Checkpoint × Session) :=
  if session.depth < depthLimit then
    .ok (session.loops.checkpoint, { session with depth := session.depth + 1 })
  else .error (.evaluation template 0 (.nestedTooDeep depthLimit))

/-- Ends a child render. One that succeeded must have closed its loops; after one that failed they
are dropped. -/
def leave (session : Session) (mark : Checkpoint) (result : Except Failure String) :
    Except Failure String × Session :=
  let session := { session with depth := session.depth - 1 }
  match result with
  | .ok output =>
    match session.loops.verify mark with
    | .ok () => (.ok output, session)
    | .error error => (.error (.loopStack error), session)
  | .error failure =>
    (.error failure, { session with loops := session.loops.unwind mark })

end Session

end ThemeTemplates
