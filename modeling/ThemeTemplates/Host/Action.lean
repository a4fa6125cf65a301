import ThemeTemplates.Failure.Basic

/-!
# Host actions

What a host does when it is asked something: it looks at the render, reads or changes a state of its
own, renders partials, and in the end answers or fails. A failing partial does not end the action;
the host is told and may go on.
-/

namespace ThemeTemplates

/-- What a host sees of the render that asks it. -/
structure RenderView where
  template : String
  /-- The view that is rendered, if it is one. -/
  view : Option String
  currentItem : Data
  loop : Option LoopMetadata
  loopDepth : Nat
  /-- The data a variable of the running template holds. -/
  find? : String → Option Data

/-- What a host with a state of type `σ` does before it answers with an `α`. -/
inductive HostAction (σ α : Type) where
  | answer (value : α)
  | fail (error : HostError)
  | look (resume : RenderView → HostAction σ α)
  | readState (resume : σ → HostAction σ α)
  | writeState (state : σ) (resume : HostAction σ α)
  /-- Renders a template as a child of the one that is running. -/
  | renderChild (template : String) (data : ViewData)
      (resume : Except Failure String → HostAction σ α)

namespace HostAction

variable {σ α β : Type}

def bind : HostAction σ α → (α → HostAction σ β) → HostAction σ β
  | answer value, next => next value
  | fail error, _ => fail error
  | look resume, next => look fun view => (resume view).bind next
  | readState resume, next => readState fun state => (resume state).bind next
  | writeState state resume, next => writeState state (resume.bind next)
  | renderChild template data resume, next =>
    renderChild template data fun result => (resume result).bind next

instance : Monad (HostAction σ) where
  pure := answer
  bind := bind

def anyOf (ask : α → HostAction σ Bool) : List α → HostAction σ Bool
  | [] => answer false
  | item :: rest => do
    if ← ask item then answer true else anyOf ask rest

end HostAction

end ThemeTemplates
