import ThemeTemplates.Proofs.Page.Spelling
import ThemeTemplates.Proofs.Render.Origin
import ThemeTemplates.Proofs.Render.Rendering

/-!
# Templates reported as missing

A template that is reported as missing is missing, with one exception: a page that includes or
extends a missing template is reported as missing itself, although it is there.
-/

namespace ThemeTemplates

open Evaluation

variable {σ : Type}

theorem Failure.flatten_eq_templateNotFound {failure : Failure} {name : String} :
    failure.flatten = .templateNotFound name ↔ failure = .templateNotFound name := by
  cases failure <;> simp [Failure.flatten]

def Failure.missing? : Failure → Option String
  | .templateNotFound name => some name
  | _ => none

theorem Failure.missing?_eq_some_iff {failure : Failure} {name : String} :
    failure.missing? = some name ↔ failure = .templateNotFound name := by
  cases failure <;> simp [Failure.missing?]

theorem Failure.error_of_missing {α : Type} {result : Except Failure α} {name : String}
    (reports : ((result.map fun _ => none).tryCatch fun failure => .ok failure.missing?).toOption =
      some (some name)) : result = .error (.templateNotFound name) := by
  cases result with
  | ok output => cases reports
  | error failure => rw [Failure.missing?_eq_some_iff.mp (Option.some.inj reports)]

theorem Library.Rejects.reported {library : Library} {name : String}
    (h : library.Rejects (.templateNotFound name)) :
    ∃ template, library.loader.load template = .error (.templateNotFound name) := by
  obtain ⟨template, fault, failed, carried⟩ := h
  refine ⟨template, ?_⟩
  cases refuses_iff.mpr failed with
  | missing | directives => cases carried
  | unreadable refused =>
      cases carried
      exact refused
  | @page _ _ error =>
      unfold Fault.ofPageError at carried
      cases flaw : error.flaw <;> rw [flaw] at carried <;> cases carried

theorem Library.FailsToCompile.missing_of_notFound {library : Library} {template name : String}
    (honest : ∀ template, library.loader.load template ≠ .error (.templateNotFound name))
    (h : library.FailsToCompile template (.templateNotFound name)) :
    template = name ∧ library.loader.load name = .ok none := by
  generalize same : Failure.templateNotFound name = failure at h
  cases h with
  | missing absent =>
      cases same
      exact ⟨rfl, absent⟩
  | unreadable refused =>
      have reported := Failure.flatten_eq_templateNotFound.mp same.symm
      subst reported
      exact absurd refused (honest template)
  | directives | page | escape => cases same

theorem Library.exists_source {library : Library} {template : String} {page : Page}
    (h : library.compile template = .ok page) :
    ∃ source, library.loader.load template = .ok (some source) := by
  unfold compile at h
  cases loaded : library.loader.load template with
  | error failure =>
      rw [loaded] at h
      cases h
  | ok source? =>
      rw [loaded] at h
      cases source? with
      | none => cases h
      | some source => exact ⟨source, rfl⟩

theorem Library.template_of_compile {library : Library} {template : String} {page : Page}
    (h : library.compile template = .ok page) : page.template = template := by
  obtain ⟨source, loaded⟩ := exists_source h
  rw [compile_of_source loaded] at h
  split at h
  · cases h
  · next code _ =>
      cases parsed : Page.parse template code with
      | error error =>
          rw [parsed] at h
          cases h
      | ok read =>
          rw [parsed] at h
          cases h
          exact (Parse.parse_eq_ok_iff.mp parsed).1

abbrev Named (template : String) (page : Page) : Prop :=
  page.template = template

/-- A run of a template that is not missing is stopped where its page includes or extends templates
that are. -/
structure PageRun.Strays (render : Render σ) (run : PageRun σ) : Prop where
  stopped : ∃ fault t, run.stop render = (.error fault, t) ∧ t.session.failure = none ∧
    fault.carried? = none ∧ fault.cause = .missingTemplate
  present : render.library.loader.load run.template ≠ .ok none
  absent : ∃ other, render.library.loader.load other = .ok none

namespace Render

variable {render : Render σ} {name : String}

theorem named_of_compile (render : Render σ) (template : String) (page : Page)
    (h : render.library.compile template = .ok page) : Named template page :=
  Library.template_of_compile h

/-- A run that reports a template as missing: it is missing, or the run strays from it. -/
theorem Incurs.missing_or_strays
    (honest : ∀ template, render.library.loader.load template ≠ .error (.templateNotFound name))
    {run : PageRun σ} (ready : Ready Named run)
    (incurs : render.Incurs run (.templateNotFound name)) :
    render.library.loader.load name = .ok none ∨ run.template = name ∧ run.Strays render := by
  generalize same : Failure.templateNotFound name = failure at incurs
  cases incurs with
  | byCall made raises =>
      cases raises with
      | host | next | pop => cases same
      | child renders fails =>
          cases fails with
          | defaults | nested | unclosed => cases same
          | uncompiled supplied room new fails =>
              subst same
              exact .inl (fails.missing_of_notFound honest).2
  | @byPage fault t stopped unkept =>
      have ended := ready.stop (named_of_compile render)
      rw [stopped] at ended
      unfold Failure.ofFault at same
      cases carried : fault.carried? with
      | some failure =>
          rw [carried] at same
          have reported := Failure.flatten_eq_templateNotFound.mp same.symm
          subst reported
          rcases ended.2.1.carried _ carried with ⟨_, inactive⟩ | rejected
          · cases inactive
          · obtain ⟨template, refused⟩ := rejected.reported
            exact absurd refused (honest template)
      | none =>
          rw [carried] at same
          cases cause : fault.cause with
          | missingTemplate =>
              simp only [cause, Failure.templateNotFound.injEq] at same
              subst same
              by_cases missing : render.library.loader.load run.template = .ok none
              · exact .inl missing
              · exact .inr ⟨rfl, ⟨fault, t, stopped, unkept, carried, cause⟩, missing,
                  ended.2.1.missing cause⟩
          | unreadablePage reason =>
              simp only [cause] at same
              cases same
          | complaint complaint =>
              simp only [cause] at same
              cases same

/-- A partial of a run, and a partial of that, and so on. -/
abbrev Leads (render : Render σ) : PageRun σ → PageRun σ → Prop :=
  Relation.ReflTransGen (Partial render)

theorem Ready.last {kept : String → Page → Prop}
    (compiles : ∀ template page, render.library.compile template = .ok page → kept template page)
    {run last : PageRun σ} (ready : Ready kept run) (leads : render.Leads run last) :
    Ready kept last := by
  induction leads with
  | refl => exact ready
  | tail _ renders ih => exact ih.partial compiles renders

/-- A template that a run reports as missing is missing, or a run strays from it. -/
theorem Ready.missing_or_strays
    (honest : ∀ template, render.library.loader.load template ≠ .error (.templateNotFound name))
    {run : PageRun σ} (ready : Ready Named run)
    (reported : run.failure? render = some (.templateNotFound name)) :
    render.library.loader.load name = .ok none ∨
      ∃ last, render.Leads run last ∧ last.template = name ∧ last.Strays render := by
  obtain ⟨last, leads, incurs⟩ := exists_chain (named_of_compile render) ready reported
  rcases incurs.missing_or_strays honest
    (ready.last (named_of_compile render) leads) with missing | ⟨same, strays⟩
  · exact .inl missing
  · exact .inr ⟨last, leads, same, strays⟩

end Render

/-! ### Operations of an engine -/

namespace Engine

open Render

variable {engine : Engine σ}

/-- The pages of an engine are kept under the names of their templates. They need not be what the
library holds by now. -/
def KeepsNames (engine : Engine σ) : Prop :=
  ∀ name page, (name, page) ∈ engine.compiled → Named name page

theorem keepsNames_of_nil (h : engine.compiled = []) : engine.KeepsNames := by
  intro name page hmem
  rw [h] at hmem
  cases hmem

theorem KeepsNames.refresh (h : engine.KeepsNames) : engine.refresh.KeepsNames := by
  unfold Engine.refresh
  split
  · exact keepsNames_of_nil rfl
  · exact h

theorem keepsNames_register (engine : Engine σ) (directive : Directive) :
    (engine.register directive).2.KeepsNames :=
  keepsNames_of_nil rfl

theorem KeepsNames.remove (h : engine.KeepsNames) (name : String) :
    (engine.remove name).2.KeepsNames := by
  unfold Engine.remove
  split
  · exact h
  · exact keepsNames_of_nil rfl

theorem KeepsNames.fetch (h : engine.KeepsNames) (template : String) :
    (engine.fetch template).2.KeepsNames := by
  intro name page hmem
  rcases Library.mem_fetch hmem with known | ⟨rfl, compiles⟩
  · exact h name page known
  · exact Library.template_of_compile compiles

theorem KeepsNames.compile (h : engine.KeepsNames) (template : String) :
    (engine.compile template).2.KeepsNames :=
  h.refresh.fetch template

theorem refresh_eq (engine : Engine σ) :
    ∃ kept, engine.refresh = { engine with compiled := kept } := by
  unfold Engine.refresh
  split
  · exact ⟨[], rfl⟩
  · exact ⟨engine.compiled, rfl⟩

theorem fetched (engine : Engine σ) (template : String) :
    ∃ result compiled, engine.refresh.fetch template = (result, { engine with compiled }) ∧
      ∀ failure, result = .error failure → engine.library.FailsToCompile template failure := by
  obtain ⟨kept, refreshed⟩ := refresh_eq engine
  rw [refreshed]
  cases fetched : engine.library.fetch kept template with
  | mk result compiled =>
      have came : ({ engine with compiled := kept } : Engine σ).fetch template =
          (result.mapError fun fault => Failure.ofFault fault template,
            { engine with compiled }) := by
        simp only [Engine.fetch, fetched]
      refine ⟨_, compiled, came, ?_⟩
      rintro failure same
      cases result with
      | ok page => cases same
      | error fault =>
          cases same
          exact Library.failsToCompile_iff.mpr ⟨fault, (Library.fetch_eq_error fetched).2, rfl⟩

theorem KeepsNames.of_fetched (h : engine.KeepsNames) {template : String}
    {result : Except Failure Page} {compiled : Fields Page}
    (fetched : engine.refresh.fetch template = (result, { engine with compiled })) :
    ({ engine with compiled } : Engine σ).KeepsNames := by
  have keeps := h.refresh.fetch template
  rwa [fetched] at keeps

/-- A root render has its page and its data and begins with this run. -/
inductive Begins (engine : Engine σ) (template : String) (data : ViewData) : PageRun σ → Prop
  | intro {page : Page} {compiled : Fields Page} {given : ViewData}
    (fetched : engine.refresh.fetch template = (.ok page, { engine with compiled }))
    (resolved : engine.rootData template data = .ok given) :
    Begins engine template data (.root page given (engine.beginning compiled))

theorem rootData_error {template : String} {data : ViewData} {failure : Failure}
    (h : engine.rootData template data = .error failure) :
    ∃ source, engine.defaults template = .error source ∧
    failure = .collaborator "defaults" source := by
  unfold rootData View.resolveRoot DefaultsProvider.layer at h
  cases supplied : engine.defaults template with
  | error source =>
      rw [supplied] at h
      cases h
      exact ⟨source, rfl, rfl⟩
  | ok layer =>
      rw [supplied] at h
      simp only [Except.mapError, bind, Except.bind, pure, Except.pure] at h
      split at h <;> cases h

theorem Begins.ready (h : engine.KeepsNames) {template : String} {data : ViewData} {run : PageRun σ}
    (begins : engine.Begins template data run) : Ready Named run := by
  obtain ⟨fetched, -⟩ := begins
  exact ⟨⟨⟨rfl, h.of_fetched fetched⟩, rfl⟩, Nat.zero_add _⟩

/-- How a root render goes: its page cannot be fetched, or its data cannot be put together, or a run
begins. -/
theorem renderRoot_cases (engine : Engine σ) (template : String) (data : ViewData)
    (view : Option String) :
    (∃ result failure compiled, engine.refresh.fetch template = (result, { engine with compiled }) ∧
      engine.renderRoot template data view = (.error failure, { engine with compiled }) ∧
      (engine.library.FailsToCompile template failure ∨
        ∃ source, engine.defaults template = .error source ∧
          failure = .collaborator "defaults" source)) ∨
    ∃ page given compiled result stop,
      engine.Begins template data (.root page given (engine.beginning compiled)) ∧
      ((engine.rendering view).root page given).run (engine.beginning compiled) = (result, stop) ∧
      engine.renderRoot template data view =
        (result, { engine with hostState := stop.host, compiled := stop.compiled }) := by
  obtain ⟨result, compiled, fetched, fails⟩ := engine.fetched template
  cases result with
  | error failure =>
      refine .inl ⟨_, failure, compiled, fetched, ?_, .inl (fails failure rfl)⟩
      simp only [renderRoot, fetched, bind, Except.bind]
  | ok page =>
      cases resolved : engine.rootData template data with
      | error failure =>
          have again : ({ engine with compiled } : Engine σ).rootData template data =
              .error failure :=
            resolved
          refine .inl ⟨_, failure, compiled, fetched, ?_, .inr (rootData_error resolved)⟩
          simp only [renderRoot, fetched, again, bind, Except.bind]
      | ok given =>
          cases ran : ((engine.rendering view).root page given).run (engine.beginning compiled) with
          | mk result stop =>
              exact .inr ⟨page, given, compiled, result, stop, .intro fetched resolved, ran,
                renderRoot_of_run fetched resolved ran⟩

theorem KeepsNames.renderRoot (h : engine.KeepsNames) (template : String) (data : ViewData)
    (view : Option String) : (engine.renderRoot template data view).2.KeepsNames := by
  rcases engine.renderRoot_cases template data view with
    ⟨_, failure, compiled, fetched, failed, -⟩ |
    ⟨page, given, compiled, result, stop, begins, ran, rendered⟩
  · rw [failed]
    exact h.of_fetched fetched
  · rw [rendered]
    have ended := (begins.ready h).stop (named_of_compile (engine.rendering view))
    cases stopped : PageRun.stop (engine.rendering view)
        (.root page given (engine.beginning compiled)) with
    | mk result' t =>
        rw [stopped] at ended
        cases result' with
        | ok output =>
            have same : stop = t := (congrArg Prod.snd (ran.symm.trans (root_of_output stopped)))
            subst same
            exact ended.compiled
        | error fault =>
            have same : stop = ((takeFailure page.template fault).run t).2 :=
              congrArg Prod.snd (ran.symm.trans (root_of_fault stopped))
            subst same
            exact ended.1.compiled

theorem KeepsNames.renderRoot_reports (h : engine.KeepsNames) {template name : String}
    {data : ViewData} {view : Option String}
    (reported : (engine.renderRoot template data view).1 = .error (.templateNotFound name)) :
    engine.library.FailsToCompile template (.templateNotFound name) ∨
      ∃ run, engine.Begins template data run ∧
        run.failure? (engine.rendering view) = some (.templateNotFound name) := by
  rcases engine.renderRoot_cases template data view with
    ⟨_, failure, compiled, -, failed, why⟩ |
    ⟨page, given, compiled, result, stop, begins, ran, rendered⟩
  · rw [failed] at reported
    cases reported
    rcases why with fails | ⟨_, -, same⟩
    · exact .inl fails
    · cases same
  · rw [rendered] at reported
    have failed : (((engine.rendering view).root page given).run (engine.beginning compiled)).1 =
        .error (.templateNotFound name) := by
      rw [ran]
      exact reported
    have ready := begins.ready h
    refine .inr ⟨_, begins, ?_⟩
    rcases (root_eq_error_iff (named_of_compile (engine.rendering view)) ready).mp failed with
      ⟨last, chain, incurs⟩ | ⟨_, _, _, _, _, same⟩
    · exact failure?_of_chain (named_of_compile (engine.rendering view)) ready chain incurs
    · cases same

theorem failsToCompile_of_compile {template : String} {failure : Failure}
    (failed : (engine.compile template).1 = .error failure) :
    engine.library.FailsToCompile template failure := by
  obtain ⟨result, compiled, fetched, fails⟩ := engine.fetched template
  unfold Engine.compile at failed
  rw [fetched] at failed
  cases result with
  | ok page => cases failed
  | error _ =>
      cases failed
      exact fails _ rfl

/-- A template that an engine reports as missing is missing, unless a run strays from it; provided
that the loader does not report templates as missing itself. -/
theorem not_found_names_missing_iff (engine : Engine σ) (kept : engine.KeepsNames) (name : String) :
    (∃ template, engine.library.loader.load template = .error (.templateNotFound name)) ∨
    (∀ template, (engine.compile template).1 = .error (.templateNotFound name) →
      engine.library.loader.load name = .ok none) ∧
    (∀ template data view,
      (engine.renderRoot template data view).1 = .error (.templateNotFound name) →
      (engine.library.loader.load name = .ok none ↔
        ¬ ∃ first last, engine.Begins template data first ∧
        (engine.rendering view).Leads first last ∧
          last.template = name ∧ last.Strays (engine.rendering view))) ∧
    ∀ view levels call template data,
      Idle Named call.found.session.depth call.found →
      call.found.session.depth + levels = Session.depthLimit →
      (((engine.rendering view).renderChild ((engine.rendering view).renderWithin levels) call.site
        template data).run call.found).1 = .error (.templateNotFound name) →
      (engine.library.loader.load name = .ok none ↔
        ¬ ∃ first last, (engine.rendering view).Opens call template data first ∧
          levels = first.levels + 1 ∧ (engine.rendering view).Leads first last ∧
          last.template = name ∧ last.Strays (engine.rendering view)) := by
  by_cases honest : ∃ template, engine.library.loader.load template =
      .error (.templateNotFound name)
  · exact .inl honest
  have honest : ∀ template, engine.library.loader.load template ≠ .error (.templateNotFound name) :=
    fun template refused => honest ⟨template, refused⟩
  refine .inr ⟨fun template reported => ?_, fun template data view reported => ?_,
    fun view levels call template data idle room reported => ?_⟩
  · exact ((failsToCompile_of_compile reported).missing_of_notFound honest).2
  · refine ⟨?_, fun keepsTrack => ?_⟩
    · rintro missing ⟨_, _, _, _, rfl, strays⟩
      exact strays.present missing
    · rcases kept.renderRoot_reports reported with fails | ⟨first, begins, failed⟩
      · exact (fails.missing_of_notFound honest).2
      · have reason : (engine.rendering view).library.loader.load name = .ok none ∨ _ :=
          (begins.ready kept).missing_or_strays honest failed
        refine reason.resolve_right ?_
        rintro ⟨last, leads, same, strays⟩
        exact keepsTrack ⟨first, last, begins, leads, same, strays⟩
  · refine ⟨?_, fun keepsTrack => ?_⟩
    · rintro missing ⟨_, _, _, _, _, rfl, strays⟩
      exact strays.present missing
    · rcases (renderChild_eq_error_iff idle.failure room).mp reported with
        fails | ⟨first, opens, below, failed⟩
      · cases fails with
        | uncompiled supplied room new fails => exact (fails.missing_of_notFound honest).2
      · have ready := opens.ready (named_of_compile (engine.rendering view)) idle (below ▸ room)
        refine (ready.missing_or_strays honest failed).resolve_right ?_
        rintro ⟨last, leads, same, strays⟩
        exact keepsTrack ⟨first, last, opens, below, leads, same, strays⟩

def goneIncluder : Engine Unit where
  library := (ofTemplates [("t", "\x7b% include 'gone' %\x7d")]).library
  host := Host.none
  hostState := ()

theorem goneIncluder_reports_itself :
    (goneIncluder.render "t" []).1 = .error (.templateNotFound "t") ∧
      goneIncluder.library.loader.load "t" = .ok (some "\x7b% include 'gone' %\x7d") :=
  ⟨Failure.error_of_missing (by decide +kernel), rfl⟩

theorem goneIncluder_strays : ∃ first last, goneIncluder.Begins "t" [] first ∧
    (goneIncluder.rendering none).Leads first last ∧ last.template = "t" ∧
    last.Strays (goneIncluder.rendering none) := by
  rcases not_found_names_missing_iff goneIncluder (keepsNames_of_nil rfl) "t" with
    ⟨_, reported⟩ | ⟨_, roots, _⟩
  · cases reported
  · have exact := roots "t" [] none goneIncluder_reports_itself.1
    refine by_contra fun keepsTrack => ?_
    cases exact.mpr keepsTrack

end Engine

end ThemeTemplates
