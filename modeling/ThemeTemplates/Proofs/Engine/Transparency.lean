import ThemeTemplates.Proofs.Engine.Operations
import ThemeTemplates.Proofs.Render.Uncached

/-!
# The pages an engine keeps

An engine that keeps compiled pages answers like one that compiles anew whatever it needs, from
sources that are frozen when they first compile. Registering a directive, or removing one that there
is, thaws them. In development mode an engine answers like one that has just been built.
-/

namespace ThemeTemplates

open RenderState Render

variable {σ : Type}

def Loader.source? (loader : Loader) (template : String) : Option String :=
  match loader.load template with
  | .ok source => source
  | .error _ => none

def Loader.pinned (loader : Loader) (frozen : String → Option String) : Loader where
  load := fun template =>
    match frozen template with
    | some source => .ok (some source)
    | none => loader.load template
  list := loader.list

/-- An engine that keeps no page. It uses the engine inside for all but compiling, and never looks
at the pages of that one. -/
structure PlainEngine (σ : Type) where
  inner : Engine σ
  /-- The sources that have compiled, as they were then. -/
  frozen : String → Option String := fun _ => none

namespace PlainEngine

def library (plain : PlainEngine σ) : Library where
  loader := plain.inner.library.loader.pinned plain.frozen
  directives := plain.inner.library.directives

/-- Freezes the sources of templates that have just compiled, unless they are frozen already. -/
def freeze (plain : PlainEngine σ) (noted : Fields Page) : PlainEngine σ where
  inner := plain.inner
  frozen := fun template =>
    match plain.frozen template with
    | some source => some source
    | none =>
      if noted.contains template then plain.inner.library.loader.source? template else none

def compile (plain : PlainEngine σ) (template : String) : Except Failure Unit × PlainEngine σ :=
  match plain.library.compile template with
  | .ok page => (.ok (), plain.freeze [(template, page)])
  | .error fault => (.error (Failure.ofFault fault template), plain)

def renderRoot (plain : PlainEngine σ) (template : String) (data : ViewData)
    (view : Option String) :
    Except Failure String × PlainEngine σ :=
  match plain.library.compile template with
  | .error fault => (.error (Failure.ofFault fault template), plain)
  | .ok page =>
    match plain.inner.rootData template data with
    | .error failure => (.error failure, plain.freeze [(template, page)])
    | .ok given =>
      let render : Render σ := { plain.inner.rendering view with library := plain.library }
      let (result, stop) := render.plainRoot page given (plain.inner.beginning [(template, page)])
      (result,
        { plain.freeze stop.compiled with inner := { plain.inner with hostState := stop.host } })

def perform (plain : PlainEngine σ) : Operation → Answer × PlainEngine σ
  | .insert name source => (.inserted, { plain with inner := plain.inner.insert name source })
  | .register directive =>
    let (replaced, inner) := plain.inner.register directive
    (.directive replaced, { inner })
  | .remove name =>
    match plain.inner.remove name with
    | (none, _) => (.directive none, plain)
    | (some removed, inner) => (.directive (some removed), { inner })
  | .compile template => (plain.compile template).map .compiled id
  | .render template data => (plain.renderRoot template data none).map .rendered id
  | .renderView slug data =>
    let view := plain.inner.viewName slug
    (plain.renderRoot view (data.insert Engine.viewVariable (.text view)) (some view)).map
      .rendered id
  | .renderPartial slug data =>
    (plain.renderRoot (String.ofList (partialName slug.toList)) data none).map .rendered id
  | .expand template => (.expanded (plain.inner.expand template), plain)

def run (plain : PlainEngine σ) : List Operation → List Answer × PlainEngine σ
  | [] => ([], plain)
  | operation :: rest =>
    let (answer, plain) := plain.perform operation
    let (answers, plain) := plain.run rest
    (answer :: answers, plain)

/-! ### What is frozen -/

variable {plain : PlainEngine σ} {template source : String} {noted : Fields Page}

theorem compile_of_unfrozen (unfrozen : plain.frozen template = none) :
    plain.library.compile template = plain.inner.library.compile template := by
  refine Library.compile_congr ?_ rfl
  simp only [library, Loader.pinned, unfrozen]

theorem compile_of_frozen {other : PlainEngine σ} (frozen : plain.frozen template = some source)
    (frozen' : other.frozen template = some source)
    (directives : plain.library.directives = other.library.directives) :
    plain.library.compile template = other.library.compile template := by
  refine Library.compile_congr ?_ directives
  simp only [library, Loader.pinned, frozen, frozen']

theorem exists_frozen {page : Page} (compiles : plain.library.compile template = .ok page)
    (known : ((plain.frozen template).isSome || noted.contains template) = true) :
    ∃ source, (plain.freeze noted).frozen template = some source ∧
      plain.library.loader.load template = .ok (some source) := by
  unfold freeze library
  cases frozen : plain.frozen template with
  | some source => exact ⟨source, by simp only [frozen], by simp only [Loader.pinned, frozen]⟩
  | none =>
      rw [compile_of_unfrozen frozen] at compiles
      obtain ⟨source, loaded⟩ := Library.exists_source compiles
      rw [frozen] at known
      refine ⟨source, ?_, by simpa only [Loader.pinned, frozen] using loaded⟩
      simpa [frozen, Loader.source?, loaded] using known

theorem freeze_eq_none (unfrozen : plain.frozen template = none)
    (unnoted : noted.contains template = false) : (plain.freeze noted).frozen template = none := by
  simp [freeze, unfrozen, unnoted]

theorem compile_freeze {page : Page} (compiles : plain.library.compile template = .ok page)
    (known : ((plain.frozen template).isSome || noted.contains template) = true) :
    (plain.freeze noted).library.compile template = .ok page := by
  obtain ⟨source, frozen, loaded⟩ := exists_frozen compiles known
  rw [← compiles]
  refine Library.compile_congr ?_ rfl
  rw [loaded, library]
  simp only [Loader.pinned, frozen]

end PlainEngine

/-- The pages of an engine stand for the sources that are frozen beside it. -/
structure Engine.Beside (engine : Engine σ) (plain : PlainEngine σ) : Prop where
  same : ∃ compiled, plain.inner = { engine with compiled }
  stands : engine.library.Stands plain.library (fun name => (plain.frozen name).isSome)
    engine.compiled []

namespace Engine

variable {engine : Engine σ} {plain : PlainEngine σ}

theorem beside_of_nothing (nothing : engine.compiled = [])
    (same : ∃ compiled, plain.inner = { engine with compiled })
    (unfrozen : plain.frozen = fun _ => none) :
    engine.Beside plain := by
  refine ⟨same, fun name => ?_⟩
  obtain ⟨_, same⟩ := same
  have absent : plain.frozen name = none := by rw [unfrozen]
  rw [nothing]
  refine ⟨?_, by simp only [absent]; rfl⟩
  rw [PlainEngine.compile_of_unfrozen absent, same]

theorem beside_freeze {compiled noted : Fields Page}
    (same : ∃ compiled, plain.inner = { engine with compiled })
    (stands : engine.library.Stands plain.library (fun name => (plain.frozen name).isSome) compiled
      noted) : ({ engine with compiled } : Engine σ).Beside (plain.freeze noted) := by
  refine ⟨same, fun name => ?_⟩
  have stood := stands name
  cases found : compiled.find? name with
  | some page =>
      rw [found] at stood
      obtain ⟨source, frozen, -⟩ := PlainEngine.exists_frozen stood.1 stood.2
      exact ⟨PlainEngine.compile_freeze stood.1 stood.2, by simp only [frozen]; rfl⟩
  | none =>
      rw [found] at stood
      obtain ⟨unfrozen, unnoted⟩ := Bool.or_eq_false_iff.mp stood.2
      have absent : (plain.freeze noted).frozen name = none :=
        PlainEngine.freeze_eq_none (Option.isNone_iff_eq_none.mp (by simpa using unfrozen)) unnoted
      refine ⟨?_, by simp only [absent]; rfl⟩
      have current : (plain.freeze noted).library.compile name = plain.inner.library.compile name :=
        PlainEngine.compile_of_unfrozen absent
      obtain ⟨_, same⟩ := same
      rw [same] at current
      exact current.symm

/-! ### One operation -/

theorem Beside.setHost (beside : engine.Beside plain) (hostState : σ) :
    ({ engine with hostState } : Engine σ).Beside
      { plain with inner := { plain.inner with hostState } } := by
  obtain ⟨⟨kept, same⟩, stands⟩ := beside
  exact ⟨⟨kept, by rw [same]⟩, stands⟩

theorem Beside.insert (beside : engine.Beside plain) (name source : String) :
    (engine.insert name source).Beside { plain with inner := plain.inner.insert name source } := by
  obtain ⟨⟨kept, same⟩, stands⟩ := beside
  refine ⟨⟨kept, by rw [same]; rfl⟩, fun template => ?_⟩
  have stood := stands template
  have untouched : (engine.insert name source).compiled = engine.compiled := rfl
  rw [untouched]
  cases found : engine.compiled.find? template with
  | some page =>
      rw [found] at stood
      obtain ⟨compiles, known⟩ := stood
      obtain ⟨source', frozen⟩ : ∃ source, plain.frozen template = some source :=
        Option.isSome_iff_exists.mp (by simpa [Fields.contains] using known)
      refine ⟨?_, known⟩
      rw [← compiles]
      exact PlainEngine.compile_of_frozen frozen frozen rfl
  | none =>
      rw [found] at stood
      obtain ⟨-, unknown⟩ := stood
      have unfrozen : plain.frozen template = none := by simpa [Fields.contains] using unknown
      have current : ({ plain with inner := plain.inner.insert name source } :
          PlainEngine σ).library.compile template =
            (plain.inner.insert name source).library.compile template :=
        PlainEngine.compile_of_unfrozen unfrozen
      refine ⟨?_, unknown⟩
      rw [current, same]
      rfl

section

variable (beside : engine.Beside plain) (production : engine.developmentMode = false)

include beside production

theorem Beside.fetched (template : String) :
    match plain.library.compile template with
    | .ok page => ∃ compiled, engine.refresh.fetch template = (.ok page, { engine with compiled }) ∧
        engine.library.Stands plain.library (fun name => (plain.frozen name).isSome) compiled
          [(template, page)]
    | .error fault =>
        engine.refresh.fetch template = (.error (Failure.ofFault fault template), engine) := by
  have refreshed : engine.refresh = engine := by
    unfold refresh
    rw [production]
    rfl
  have fetched := beside.stands.fetch template
  rw [refreshed]
  unfold Engine.fetch
  cases compiles : plain.library.compile template with
  | ok page =>
      rw [compiles] at fetched
      obtain ⟨compiled, fetched, stands⟩ := fetched
      exact ⟨compiled, by rw [fetched]; rfl, stands⟩
  | error fault =>
      rw [compiles] at fetched
      simp only [fetched]
      rfl

theorem Beside.compile (template : String) :
    (engine.compile template).1 = (plain.compile template).1 ∧
      (engine.compile template).2.Beside (plain.compile template).2 := by
  have fetched := beside.fetched production template
  unfold Engine.compile PlainEngine.compile
  cases compiles : plain.library.compile template with
  | ok page =>
      rw [compiles] at fetched
      obtain ⟨compiled, fetched, stands⟩ := fetched
      simp only [fetched]
      exact ⟨rfl, beside_freeze beside.same stands⟩
  | error fault =>
      rw [compiles] at fetched
      simp only [fetched]
      exact ⟨rfl, beside⟩

theorem Beside.renderRoot (template : String) (data : ViewData) (view : Option String) :
    (engine.renderRoot template data view).1 = (plain.renderRoot template data view).1 ∧
      (engine.renderRoot template data view).2.Beside (plain.renderRoot template data view).2 := by
  have fetched := beside.fetched production template
  obtain ⟨kept, same⟩ := beside.same
  unfold PlainEngine.renderRoot
  cases compiles : plain.library.compile template with
  | error fault =>
      rw [compiles] at fetched
      have failed : engine.renderRoot template data view =
          (.error (Failure.ofFault fault template), engine) := by
        simp only [Engine.renderRoot, fetched, bind, Except.bind]
      rw [failed]
      exact ⟨rfl, beside⟩
  | ok page =>
      rw [compiles] at fetched
      obtain ⟨compiled, fetched, stands⟩ := fetched
      have resolves : plain.inner.rootData template data = engine.rootData template data := by
        rw [same]
        rfl
      rw [resolves]
      cases resolved : engine.rootData template data with
      | error failure =>
          have again : ({ engine with compiled } : Engine σ).rootData template data =
              .error failure :=
            resolved
          have failed : engine.renderRoot template data view =
              (.error failure, { engine with compiled }) := by
            simp only [Engine.renderRoot, fetched, again, bind, Except.bind]
          rw [failed]
          exact ⟨rfl, beside_freeze beside.same stands⟩
      | ok given =>
          have begun : Apart (engine.library.Stands plain.library fun name =>
              (plain.frozen name).isSome)
              (engine.beginning compiled) (plain.inner.beginning [(template, page)]) :=
            ⟨by rw [same]; rfl, by rw [same]; rfl, stands⟩
          have rendering : ({ plain.inner.rendering view with library := plain.library } :
            Render σ) =
              { engine.rendering view with library := plain.library } := by
            rw [same]
            rfl
          obtain ⟨results, left⟩ : _ ∧ Apart _ _ _ :=
            root_eq_plain (engine.rendering view) begun page given
          simp only [rendering]
          cases ran : ((engine.rendering view).root page given).run (engine.beginning compiled) with
          | mk result stop =>
              rw [ran] at results left
              rw [renderRoot_of_run fetched resolved ran, ← left.host]
              exact ⟨results, (beside_freeze beside.same left.compiled).setHost stop.host⟩

/-- Every operation comes to the same, and the pages stand for what is frozen afterwards. -/
theorem Beside.perform (operation : Operation) :
    (engine.perform operation).1 = (plain.perform operation).1 ∧
      (engine.perform operation).2.Beside (plain.perform operation).2 := by
  obtain ⟨kept, same⟩ := beside.same
  cases operation with
  | insert name source => exact ⟨rfl, beside.insert name source⟩
  | register directive =>
      have replaced : (plain.inner.register directive).1 = (engine.register directive).1 := by
        rw [same]
        rfl
      refine ⟨congrArg Answer.directive replaced.symm, beside_of_nothing rfl ⟨[], ?_⟩ rfl⟩
      change (plain.inner.register directive).2 = _
      rw [same]
      rfl
  | remove name =>
      simp only [Engine.perform, PlainEngine.perform, Engine.remove, same]
      cases found : engine.library.directives.find? name with
      | none => exact ⟨rfl, beside⟩
      | some directive => exact ⟨rfl, beside_of_nothing rfl ⟨[], rfl⟩ rfl⟩
  | compile template =>
      obtain ⟨results, left⟩ := beside.compile production template
      exact ⟨congrArg Answer.compiled results, left⟩
  | render template data =>
      obtain ⟨results, left⟩ := beside.renderRoot production template data none
      exact ⟨congrArg Answer.rendered results, left⟩
  | renderView slug data =>
      have named : plain.inner.viewName slug = engine.viewName slug := by
        rw [same]
        rfl
      obtain ⟨results, left⟩ := beside.renderRoot production (engine.viewName slug)
        (data.insert viewVariable (.text (engine.viewName slug))) (some (engine.viewName slug))
      simp only [PlainEngine.perform, named]
      exact ⟨congrArg Answer.rendered results, left⟩
  | renderPartial slug data =>
      obtain ⟨results, left⟩ :=
        beside.renderRoot production (String.ofList (partialName slug.toList)) data none
      exact ⟨congrArg Answer.rendered results, left⟩
  | expand template =>
      refine ⟨congrArg Answer.expanded ?_, beside⟩
      rw [same]
      rfl

theorem Beside.run (operations : List Operation) :
    (engine.run operations).1 = (plain.run operations).1 := by
  induction operations generalizing engine plain with
  | nil => rfl
  | cons operation rest ih =>
      obtain ⟨same, left⟩ := beside.perform production operation
      obtain ⟨hostState, compiled, performed⟩ := engine.perform_eq operation
      have still : (engine.perform operation).2.developmentMode = false := by
        rw [performed]
        exact production
      exact congrArg₂ List.cons same (ih left still)

end

/-! ### Development mode -/

theorem refresh_of_nothing (nothing : engine.compiled = []) : engine.refresh = engine := by
  unfold refresh
  split
  · rw [← nothing]
  · rfl

theorem renderRoot_of_developmentMode (on : engine.developmentMode = true) (mode : Bool)
    (template : String) (data : ViewData) (view : Option String) :
    (engine.renderRoot template data view).1 =
      (({ engine with compiled := [], developmentMode := mode } : Engine σ).renderRoot template data
        view).1 := by
  have dropped : engine.refresh = { engine with compiled := [] } := if_pos on
  have fresh : ({ engine with compiled := [], developmentMode := mode } : Engine σ).refresh =
      { engine with compiled := [], developmentMode := mode } := refresh_of_nothing rfl
  have resolves : ∀ compiled mode, ({ engine with compiled, developmentMode := mode } :
    Engine σ).rootData
      template data = engine.rootData template data := fun _ _ => rfl
  simp only [renderRoot, dropped, fresh, Engine.fetch, resolves]
  cases engine.library.fetch [] template with
  | mk result compiled =>
      cases result with
      | error fault => rfl
      | ok page => cases engine.rootData template data <;> rfl

theorem perform_of_developmentMode (on : engine.developmentMode = true) (mode : Bool)
    (operation : Operation) :
    (engine.perform operation).1 =
      (({ engine with compiled := [], developmentMode := mode } : Engine σ).perform
        operation).1 := by
  cases operation with
  | insert | register | expand => rfl
  | remove name =>
      simp only [perform, remove]
      cases engine.library.directives.find? name <;> rfl
  | compile template =>
      have dropped : engine.refresh = { engine with compiled := [] } := if_pos on
      have fresh : ({ engine with compiled := [], developmentMode := mode } : Engine σ).refresh =
          { engine with compiled := [], developmentMode := mode } := refresh_of_nothing rfl
      simp only [perform, Engine.compile, dropped, fresh]
      rfl
  | render => exact congrArg Answer.rendered (renderRoot_of_developmentMode on mode _ _ _)
  | renderView => exact congrArg Answer.rendered (renderRoot_of_developmentMode on mode _ _ _)
  | renderPartial => exact congrArg Answer.rendered (renderRoot_of_developmentMode on mode _ _ _)

/-- Whatever operations come one after the other, an engine that keeps pages answers each as one
does that compiles anew from the sources that are frozen by then, and from the current ones where
none is. In development mode it answers after any operations as an engine does that has just been
built with the current sources and directives. -/
theorem cache_is_transparent (engine : Engine σ) (new : engine.compiled = [])
    (operations : List Operation) :
    (engine.developmentMode = false →
      (engine.run operations).1 = (PlainEngine.run { inner := engine } operations).1) ∧
    (engine.developmentMode = true → ∀ operation mode,
      ((engine.run operations).2.perform operation).1 =
        (({ engine with
            library := operations.foldl (fun library operation => operation.edit library)
              engine.library
            hostState := (engine.run operations).2.hostState
            developmentMode := mode } : Engine σ).perform operation).1) := by
  constructor
  · intro production
    have begun : engine.Beside { inner := engine } := beside_of_nothing new ⟨_, rfl⟩ rfl
    exact begun.run production operations
  · intro on operation mode
    obtain ⟨hostState, compiled, ran⟩ := engine.run_eq operations
    have still : (engine.run operations).2.developmentMode = true := by
      rw [ran]
      exact on
    rw [perform_of_developmentMode still mode, ran, new]

def oneTemplate : Engine Unit where
  library := (ofTemplates [("a", "one")]).library
  host := Host.none
  hostState := ()

def changes : List Operation :=
  [.render "a" [], .insert "a" "two", .render "a" [], .expand "a", .remove "wphead", .render "a" []]

def Answer.text? : Answer → Option String
  | .rendered (.ok output) => some output
  | .expanded (.ok code) => some (String.ofList code)
  | _ => none

theorem changes_thaw :
    (oneTemplate.run changes).1 = (PlainEngine.run { inner := oneTemplate } changes).1 ∧
      (PlainEngine.run { inner := oneTemplate } changes).1.filterMap Answer.text? =
        ["one", "one", "two", "two"] ∧
      ∀ operation mode,
        (({ oneTemplate with developmentMode := true }.run changes).2.perform operation).1 =
          (({ oneTemplate with
              library := changes.foldl (fun library operation => operation.edit library)
                oneTemplate.library
              developmentMode := mode } : Engine Unit).perform operation).1 := by
  refine ⟨(cache_is_transparent oneTemplate rfl changes).1 rfl, by decide +kernel, ?_⟩
  exact (cache_is_transparent { oneTemplate with developmentMode := true } rfl changes).2 rfl

end Engine

end ThemeTemplates
