import ThemeTemplates.Proofs.Render.NotFound

/-!
# Operations of an engine

What is done with an engine, one operation after the other. Whatever they come to, operations change
the library only by the sources that are put in and the directives that are registered or removed.
-/

namespace ThemeTemplates

variable {σ : Type}

def Loader.insert (loader : Loader) (name source : String) : Loader where
  load := fun other => if other = name then .ok (some source) else loader.load other
  list := loader.list.map fun names =>
    (Fields.insert (names.map fun name => (name, ())) name ()).keys

inductive Operation where
  | insert (name source : String)
  | register (directive : Directive)
  | remove (name : String)
  | compile (template : String)
  | render (template : String) (data : ViewData)
  | renderView (slug : String) (data : ViewData)
  | renderPartial (slug : String) (data : ViewData)
  | expand (template : String)

inductive Answer where
  | inserted
  /-- The directive that was replaced or removed. -/
  | directive (found : Option Directive)
  | compiled (result : Except Failure Unit)
  | rendered (result : Except Failure String)
  | expanded (result : Except Failure (List Char))

def Operation.edit : Operation → Library → Library
  | insert name source, library => { library with loader := library.loader.insert name source }
  | register directive, library =>
    { library with directives := library.directives.register directive }
  | remove name, library => { library with directives := library.directives.remove name }
  | _, library => library

namespace Engine

def insert (engine : Engine σ) (name source : String) : Engine σ :=
  { engine with
    library := { engine.library with loader := engine.library.loader.insert name source } }

def perform (engine : Engine σ) : Operation → Answer × Engine σ
  | .insert name source => (.inserted, engine.insert name source)
  | .register directive => (engine.register directive).map .directive id
  | .remove name => (engine.remove name).map .directive id
  | .compile template => (engine.compile template).map .compiled id
  | .render template data => (engine.render template data).map .rendered id
  | .renderView slug data => (engine.renderView slug data).map .rendered id
  | .renderPartial slug data => (engine.renderPartial slug data).map .rendered id
  | .expand template => (.expanded (engine.expand template), engine)

def run (engine : Engine σ) : List Operation → List Answer × Engine σ
  | [] => ([], engine)
  | operation :: rest =>
    let (answer, engine) := engine.perform operation
    let (answers, engine) := engine.run rest
    (answer :: answers, engine)

theorem renderRoot_eq (engine : Engine σ) (template : String) (data : ViewData)
    (view : Option String) :
    ∃ hostState compiled,
      (engine.renderRoot template data view).2 = { engine with hostState, compiled } := by
  rcases engine.renderRoot_cases template data view with
    ⟨_, _, compiled, -, failed, -⟩ | ⟨_, _, _, _, stop, -, -, rendered⟩
  · rw [failed]
    exact ⟨_, compiled, rfl⟩
  · rw [rendered]
    exact ⟨stop.host, stop.compiled, rfl⟩

/-- Whatever an operation comes to, it changes no more than the library as it says, the state of the
host and the pages that are kept. -/
theorem perform_eq (engine : Engine σ) (operation : Operation) :
    ∃ hostState compiled, (engine.perform operation).2 =
      { engine with library := operation.edit engine.library, hostState, compiled } := by
  cases operation with
  | insert | register | expand => exact ⟨_, _, rfl⟩
  | remove name =>
      refine ⟨engine.hostState, (engine.remove name).2.compiled, ?_⟩
      simp only [perform, remove, Operation.edit, Prod.map, id]
      cases found : engine.library.directives.find? name with
      | none =>
          have unchanged : engine.library.directives.remove name = engine.library.directives :=
            congrArg Registry.mk (Fields.erase_of_find?_eq_none found)
          rw [unchanged]
      | some directive => rfl
  | compile template =>
      obtain ⟨result, compiled, fetched, -⟩ := engine.fetched template
      refine ⟨engine.hostState, compiled, ?_⟩
      simp only [perform, compile, fetched, Prod.map, id]
      rfl
  | render template data => exact engine.renderRoot_eq template data none
  | renderView slug data => exact engine.renderRoot_eq _ _ _
  | renderPartial slug data => exact engine.renderRoot_eq _ _ _

theorem KeepsNames.perform {engine : Engine σ} (h : engine.KeepsNames) (operation : Operation) :
    (engine.perform operation).2.KeepsNames := by
  cases operation with
  | insert | expand => exact h
  | register directive => exact keepsNames_register engine directive
  | remove name => exact h.remove name
  | compile template => exact h.compile template
  | render template data => exact h.renderRoot template data none
  | renderView | renderPartial => exact h.renderRoot _ _ _

/-- Whatever is done with an engine, its pages stay under the names of their templates. -/
theorem KeepsNames.run {engine : Engine σ} (h : engine.KeepsNames) (operations : List Operation) :
    (engine.run operations).2.KeepsNames := by
  induction operations generalizing engine with
  | nil => exact h
  | cons operation rest ih => exact ih (h.perform operation)

/-- Operations leave the library with the sources and the directives that they put in. -/
theorem run_eq (engine : Engine σ) (operations : List Operation) :
    ∃ hostState compiled, (engine.run operations).2 =
      { engine with
        library := operations.foldl (fun library operation => operation.edit library) engine.library
        hostState, compiled } := by
  induction operations generalizing engine with
  | nil => exact ⟨_, _, rfl⟩
  | cons operation rest ih =>
      obtain ⟨hostState, compiled, performed⟩ := engine.perform_eq operation
      obtain ⟨hostState', compiled', ran⟩ := ih (engine.perform operation).2
      refine ⟨hostState', compiled', ?_⟩
      change ((engine.perform operation).2.run rest).2 = _
      rw [ran, performed]
      rfl

end Engine

end ThemeTemplates
