import Mathlib.Logic.Relation
import ThemeTemplates.Proofs.Render.Root
import ThemeTemplates.Proofs.Render.Slot

/-!
# Where a failure comes from

The page of a render makes calls, some of these render partials, and so on: runs of pages follow
each other down a chain of partials. What a run fails with is what the run at the end of such a
chain met, whatever the runs between them have been through by then.
-/

namespace ThemeTemplates

open Evaluation

variable {σ : Type}

/-- What a template that does not compile fails with. -/
inductive Library.FailsToCompile (library : Library) (template : String) : Failure → Prop
  | missing (absent : library.loader.load template = .ok none) :
    FailsToCompile library template (.templateNotFound template)
  | unreadable {failure : Failure} (refused : library.loader.load template = .error failure) :
    FailsToCompile library template failure.flatten
  | directives {source : String} {located : LocatedError}
    (loaded : library.loader.load template = .ok (some source))
    (rejected : ThemeTemplates.expand library.directives source.toList = .error located) :
    FailsToCompile library template (.compile template located.line located.error)
  | page {source reason : String} {code : List Char} {error : PageError}
    (loaded : library.loader.load template = .ok (some source))
    (expanded : ThemeTemplates.expand library.directives source.toList = .ok code)
    (rejected : Page.parse template code = .error error) (flaw : error.flaw = .malformed reason) :
    FailsToCompile library template (.compile template error.line (.invalid (.page reason)))
  | escape {source : String} {code : List Char} {error : PageError}
    (loaded : library.loader.load template = .ok (some source))
    (expanded : ThemeTemplates.expand library.directives source.toList = .ok code)
    (rejected : Page.parse template code = .error error) (flaw : error.flaw = .badEscape) :
    FailsToCompile library template (.evaluation template error.line .badEscape)

theorem Failure.ofFault_malformed {template reason : String} {error : PageError}
    (flaw : error.flaw = .malformed reason) :
    Failure.ofFault (Fault.ofPageError template error) template =
      .compile template error.line (.invalid (.page reason)) := by
  unfold Fault.ofPageError
  rw [flaw]
  rfl

theorem Failure.ofFault_badEscape {template : String} {error : PageError}
    (flaw : error.flaw = .badEscape) :
    Failure.ofFault (Fault.ofPageError template error) template =
      .evaluation template error.line .badEscape := by
  unfold Fault.ofPageError
  rw [flaw]
  rfl

theorem Library.failsToCompile_iff {library : Library} {template : String} {failure : Failure} :
    library.FailsToCompile template failure ↔
      ∃ fault, library.compile template = .error fault ∧
      Failure.ofFault fault template = failure := by
  simp only [← refuses_iff]
  constructor
  · intro fails
    cases fails with
    | missing absent => exact ⟨_, .missing absent, rfl⟩
    | unreadable refused => exact ⟨_, .unreadable refused, rfl⟩
    | directives loaded rejected => exact ⟨_, .directives loaded rejected, rfl⟩
    | page loaded expanded rejected flaw =>
        exact ⟨_, .page loaded expanded rejected, Failure.ofFault_malformed flaw⟩
    | escape loaded expanded rejected flaw =>
        exact ⟨_, .page loaded expanded rejected, Failure.ofFault_badEscape flaw⟩
  · rintro ⟨fault, refuses, rfl⟩
    cases refuses with
    | missing absent => exact .missing absent
    | unreadable refused => exact .unreadable refused
    | directives loaded rejected => exact .directives loaded rejected
    | @page _ _ error loaded expanded rejected =>
        cases flaw : error.flaw with
        | malformed reason =>
            rw [Failure.ofFault_malformed flaw]
            exact .page loaded expanded rejected flaw
        | badEscape =>
            rw [Failure.ofFault_badEscape flaw]
            exact .escape loaded expanded rejected flaw

theorem View.resolveChild_eq_error {defaults : DefaultsProvider} {template : String}
    {inherited explicit : ViewData} {failure : Failure}
    (h : View.resolveChild defaults template inherited explicit = .error failure) :
    ∃ source, defaults template = .error source := by
  unfold View.resolveChild DefaultsProvider.layer at h
  cases supplied : defaults template with
  | error source => exact ⟨source, rfl⟩
  | ok layer =>
      rw [supplied] at h
      cases h

/-! ### Runs of pages -/

structure PageRun (σ : Type) where
  template : String
  page : Page
  given : Fields Value
  start : RenderState σ
  /-- How many partials may be inside each other below it. -/
  levels : Nat

namespace PageRun

variable (render : Render σ) (run : PageRun σ)

def surroundings : Surroundings (RenderState σ) :=
  render.surroundings (render.renderWithin run.levels)

def calls : List (Invocation (RenderState σ)) :=
  (run.surroundings render).calls run.page run.given run.start

/-- What the page prints or the fault that stops it, and the state it leaves. -/
def stop : Except Fault String × RenderState σ :=
  (printPage (run.surroundings render) run.page run.given).run.run run.start

/-- What the run fails with: the failure that is kept when a fault stops the page, or else what the
fault amounts to. -/
def failure? : Option Failure :=
  match run.stop render with
  | (.ok _, _) => none
  | (.error fault, t) => some (t.session.failure.getD (Failure.ofFault fault run.template))

/-- What a render comes to that is the run of the page, if its loops must in the end be those of a
mark. -/
def result (mark : Checkpoint) : Except Failure String :=
  match run.stop render with
  | (.ok output, t) =>
      ((t.session.loops.verify mark).mapError Failure.loopStack).map fun _ => output
  | (.error fault, t) => .error (t.session.failure.getD (Failure.ofFault fault run.template))

def root (page : Page) (data : ViewData) (start : RenderState σ) : PageRun σ :=
  ⟨page.template, page, Render.context data, start, Session.depthLimit⟩

end PageRun

namespace Render

variable (render : Render σ)

def RendersPartial (call : Invocation (RenderState σ)) (template : String) (data : ViewData) :
    Prop :=
  Active call.site ∧ render.undertakes? call.name call.args = some (.child template data)

/-- A call renders a partial, and this is the run of its page. -/
inductive Opens (call : Invocation (RenderState σ)) (template : String) (data : ViewData) :
    PageRun σ → Prop
  | intro {merged : ViewData} {page : Page} {compiled : Fields Page} {levels : Nat}
    (supplied : View.resolveChild render.defaults template call.site.scope.inheritable data =
      .ok merged)
    (room : call.found.session.depth < Session.depthLimit)
    (fetched : render.library.fetch call.found.compiled template = (.ok page, compiled)) :
    Opens call template data
      ⟨template, page, context merged, { call.found.entered with compiled }, levels⟩

/-- What a partial fails with before its page runs or after it. -/
inductive PartialFails (levels : Nat) (call : Invocation (RenderState σ)) (template : String)
    (data : ViewData) : Failure → Prop
  | defaults {source : HostError} (failed : render.defaults template = .error source) :
    PartialFails levels call template data (.collaborator "defaults" source)
  | nested {merged : ViewData}
    (supplied : View.resolveChild render.defaults template call.site.scope.inheritable data =
      .ok merged)
    (full : Session.depthLimit ≤ call.found.session.depth) :
    PartialFails levels call template data
      (.evaluation template 0 (.nestedTooDeep Session.depthLimit))
  | uncompiled {merged : ViewData} {failure : Failure}
    (supplied : View.resolveChild render.defaults template call.site.scope.inheritable data =
      .ok merged)
    (room : call.found.session.depth < Session.depthLimit)
    (new : call.found.compiled.find? template = none)
    (fails : render.library.FailsToCompile template failure) :
    PartialFails levels call template data failure
  /-- The page ends with other loops open than it began with. -/
  | unclosed {run : PageRun σ} {output : String} {t : RenderState σ} {error : LoopStackError}
    (opens : render.Opens call template data run) (below : levels = run.levels + 1)
    (ended : run.stop render = (.ok output, t))
    (unclosed : t.session.loops.verify call.found.session.loops.checkpoint = .error error) :
    PartialFails levels call template data (.loopStack error)

variable {render} {levels : Nat} {call : Invocation (RenderState σ)} {template : String}
  {data : ViewData}

theorem renderChild_undefaulted {renderer : Renderer σ} {site : Site} {source : HostError}
    {s : RenderState σ} (failed : render.defaults template = .error source) :
    (render.renderChild renderer site template data).run s =
      (.error (.collaborator "defaults" source), s) := by
  unfold renderChild View.resolveChild DefaultsProvider.layer
  rw [failed]
  rfl

theorem renderChild_nested {renderer : Renderer σ} {site : Site} {merged : ViewData}
    {s : RenderState σ} (supplied :
      View.resolveChild render.defaults template site.scope.inheritable data = .ok merged)
    (full : Session.depthLimit ≤ s.session.depth) :
    (render.renderChild renderer site template data).run s =
      (.error (.evaluation template 0 (.nestedTooDeep Session.depthLimit)), s) := by
  have refused : s.session.enter template =
      .error (.evaluation template 0 (.nestedTooDeep Session.depthLimit)) :=
    if_neg (Nat.not_lt.mpr full)
  unfold renderChild
  simp only [supplied, StateT.run_bind, StateT.run_get, pure_bind, refused]
  rfl

theorem renderWithin_unfetched {given : Fields Value} {s : RenderState σ} {fault : Fault}
    {compiled : Fields Page}
    (fetched : render.library.fetch s.compiled template = (.error fault, compiled)) :
    (render.renderWithin (levels + 1) template given).run.run s =
      (.error fault, { s with compiled }) := by
  unfold renderWithin
  rw [run_bind, run_fetch_of fetched]

theorem renderWithin_fetched {given : Fields Value} {s : RenderState σ} {page : Page}
    {compiled : Fields Page}
    (fetched : render.library.fetch s.compiled template = (.ok page, compiled)) :
    (render.renderWithin (levels + 1) template given).run.run s =
      PageRun.stop render ⟨template, page, given, { s with compiled }, levels⟩ := by
  unfold renderWithin
  rw [run_bind, run_fetch_of fetched]
  rfl

theorem renderChild_unfetched {site : Site} {merged : ViewData} {s : RenderState σ} {fault : Fault}
    {compiled : Fields Page} (unkept : s.session.failure = none)
    (supplied : View.resolveChild render.defaults template site.scope.inheritable data = .ok merged)
    (room : s.session.depth < Session.depthLimit)
    (fetched : render.library.fetch s.compiled template = (.error fault, compiled)) :
    ((render.renderChild (render.renderWithin (levels + 1)) site template data).run s).1 =
      .error (Failure.ofFault fault template) := by
  have ran : render.childRun (render.renderWithin (levels + 1)) site template data s =
      some (.error fault, { s.entered with compiled }) :=
    childRun_eq_some_iff.mpr ⟨merged, supplied, room, renderWithin_unfetched fetched⟩
  rw [renderChild_of_childRun_eq_some ran]
  show Except.error (s.session.failure.getD _) = _
  rw [unkept]
  rfl

theorem Opens.template_eq {run : PageRun σ} (opens : render.Opens call template data run) :
    run.template = template := by
  cases opens
  rfl

theorem childRun_of_opens {run : PageRun σ} (opens : render.Opens call template data run)
    (below : levels = run.levels + 1) :
    render.childRun (render.renderWithin levels) call.site template data call.found =
      some (run.stop render) := by
  obtain ⟨supplied, room, fetched⟩ := opens
  rw [below]
  exact childRun_eq_some_iff.mpr ⟨_, supplied, room, renderWithin_fetched fetched⟩

/-- A partial whose page runs fails with what the run fails with, or with what is wrong with the
loops that the page leaves. -/
theorem renderChild_of_opens {run : PageRun σ} (opens : render.Opens call template data run)
    (below : levels = run.levels + 1) :
    ((render.renderChild (render.renderWithin levels) call.site template data).run call.found).1 =
      match run.stop render with
      | (.ok output, t) =>
        ((t.session.loops.verify call.found.session.loops.checkpoint).mapError
          Failure.loopStack).map
          fun _ => output
      | (.error fault, t) => .error (t.session.failure.getD (Failure.ofFault fault template)) := by
  have ran := childRun_of_opens opens below
  cases ended : run.stop render with
  | mk result t =>
      rw [ended] at ran
      rw [renderChild_of_childRun_eq_some ran]
      cases result with
      | ok output =>
          unfold afterChild Session.leave
          dsimp only
          split <;> next verified => rw [verified]; rfl
      | error fault => rfl

theorem renderChild_eq_of_opens {run : PageRun σ} (opens : render.Opens call template data run)
    (below : levels = run.levels + 1) :
    ((render.renderChild (render.renderWithin levels) call.site template data).run call.found).1 =
        run.result render call.found.session.loops.checkpoint ∧
      ((render.renderChild (render.renderWithin levels) call.site template data).run
        call.found).2.host = (run.stop render).2.host := by
  refine ⟨?_, ?_⟩
  · rw [renderChild_of_opens opens below, PageRun.result, opens.template_eq]
  · have ran := childRun_of_opens opens below
    cases ended : run.stop render with
    | mk result t =>
        rw [ended] at ran
        rw [renderChild_of_childRun_eq_some ran]
        cases result with
        | ok output =>
            unfold afterChild Session.leave
            split <;> rfl
        | error fault => rfl

theorem renderChild_eq_error_iff (unkept : call.found.session.failure = none)
    (within : call.found.session.depth + levels = Session.depthLimit) {failure : Failure} :
    ((render.renderChild (render.renderWithin levels) call.site template data).run call.found).1 =
        .error failure ↔
      render.PartialFails levels call template data failure ∨
        ∃ run : PageRun σ, render.Opens call template data run ∧ levels = run.levels + 1 ∧
          run.failure? render = some failure := by
  constructor
  · intro failed
    cases supplied : View.resolveChild render.defaults template call.site.scope.inheritable
      data with
    | error refusal =>
        obtain ⟨source, undefaulted⟩ := View.resolveChild_eq_error supplied
        rw [renderChild_undefaulted undefaulted] at failed
        cases failed
        exact .inl (.defaults undefaulted)
    | ok merged =>
        by_cases room : call.found.session.depth < Session.depthLimit
        · obtain ⟨below, rfl⟩ : ∃ below, levels = below + 1 := ⟨levels - 1, by omega⟩
          cases fetched : render.library.fetch call.found.compiled template with
          | mk result compiled =>
              cases result with
              | error fault =>
                  obtain ⟨new, uncompiled⟩ := Library.fetch_eq_error fetched
                  rw [renderChild_unfetched unkept supplied room fetched] at failed
                  cases failed
                  exact .inl (.uncompiled supplied room new
                    (Library.failsToCompile_iff.mpr ⟨fault, uncompiled, rfl⟩))
              | ok page =>
                  have opens : render.Opens call template data
                      ⟨template, page, context merged, { call.found.entered with compiled },
                        below⟩ :=
                    .intro supplied room fetched
                  rw [renderChild_of_opens opens rfl] at failed
                  cases ended : PageRun.stop render
                      ⟨template, page, context merged, { call.found.entered with compiled },
                        below⟩ with
                  | mk result t =>
                      rw [ended] at failed
                      cases result with
                      | ok output =>
                          cases verified :
                              t.session.loops.verify call.found.session.loops.checkpoint with
                          | ok _ =>
                              simp only [verified] at failed
                              cases failed
                          | error error =>
                              simp only [verified] at failed
                              cases failed
                              exact .inl (.unclosed opens rfl ended verified)
                      | error fault =>
                          cases failed
                          refine .inr ⟨_, opens, rfl, ?_⟩
                          unfold PageRun.failure?
                          rw [ended]
        · rw [renderChild_nested supplied (Nat.not_lt.mp room)] at failed
          cases failed
          exact .inl (.nested supplied (Nat.not_lt.mp room))
  · rintro (fails | ⟨run, opens, below, failed⟩)
    · cases fails with
      | defaults failed => rw [renderChild_undefaulted failed]
      | nested supplied full => rw [renderChild_nested supplied full]
      | uncompiled supplied room new fails =>
          obtain ⟨below, rfl⟩ : ∃ below, levels = below + 1 := ⟨levels - 1, by omega⟩
          obtain ⟨fault, uncompiled, rfl⟩ := Library.failsToCompile_iff.mp fails
          exact renderChild_unfetched unkept supplied room (Library.fetch_of_error new uncompiled)
      | unclosed opens below ended unclosed =>
          rw [renderChild_of_opens opens below, ended]
          simp only [unclosed]
          rfl
    · rw [renderChild_of_opens opens below]
      unfold PageRun.failure? at failed
      cases ended : run.stop render with
      | mk result t =>
          rw [ended] at failed
          cases result with
          | ok output => cases failed
          | error fault =>
              cases failed
              rw [opens.template_eq]

/-! ### Chains of partials -/

/-- A call of one run renders the partial that is run as the other. -/
def Partial (render : Render σ) (outer inner : PageRun σ) : Prop :=
  ∃ call ∈ outer.calls render, ∃ data, render.RendersPartial call inner.template data ∧
    render.Opens call inner.template data inner ∧ outer.levels = inner.levels + 1

/-- A call of a function fails, and not because the page of a partial does. -/
inductive Raises (render : Render σ) (levels : Nat) (call : Invocation (RenderState σ)) :
    Failure → Prop
  | host {α : Type} {asked : String} {action : HostAction σ α} {yield : α → Value}
      {source : HostError}
    {t : RenderState σ} (active : Active call.site)
    (asks : render.undertakes? call.name call.args = some (.ask asked action yield))
    (failed : (render.perform (render.renderWithin levels) call.site action).run call.found =
      (.error source, t)) : Raises render levels call (.collaborator asked source)
  /-- The innermost loop cannot be moved on. -/
  | next {kind : LoopKind} {item : Data} {error : LoopStackError} (active : Active call.site)
    (moves : render.undertakes? call.name call.args = some (.next kind item))
    (misused : call.found.session.nextLoop kind item = .error error) :
    Raises render levels call (.loopStack error)
  | pop {kind : LoopKind} {error : LoopStackError} (active : Active call.site)
    (closes : render.undertakes? call.name call.args = some (.pop kind))
    (misused : call.found.session.popLoop kind = .error error) :
    Raises render levels call (.loopStack error)
  /-- A partial fails before its page runs or after it. -/
  | child {template : String} {data : ViewData} {failure : Failure}
    (renders : render.RendersPartial call template data)
    (fails : render.PartialFails levels call template data failure) :
    Raises render levels call failure

/-- What a call keeps is raised by it, or it is what the page of a partial fails with. -/
theorem keeps?_eq_some_iff (unkept : call.found.session.failure = none)
    (within : call.found.session.depth + levels = Session.depthLimit) {failure : Failure} :
    render.keeps? (render.renderWithin levels) call = some failure ↔
      render.Raises levels call failure ∨
        ∃ (run : PageRun σ) (data : ViewData), render.RendersPartial call run.template data ∧
          render.Opens call run.template data run ∧ levels = run.levels + 1 ∧
          run.failure? render = some failure := by
  constructor
  · intro keeps
    by_cases active : Active call.site
    · rw [keeps?_of_active active] at keeps
      obtain ⟨deed, undertaken, fails⟩ := Option.bind_eq_some_iff.mp keeps
      cases deed with
      | ask asked action yield =>
          obtain ⟨source, t, failed, rfl⟩ := Deed.failure?_ask.mp fails
          exact .inl (.host active undertaken failed)
      | next kind item =>
          obtain ⟨error, misused, rfl⟩ := Deed.failure?_misuse.mp fails
          exact .inl (.next active undertaken misused)
      | pop kind =>
          obtain ⟨error, misused, rfl⟩ := Deed.failure?_misuse.mp fails
          exact .inl (.pop active undertaken misused)
      | child template data =>
          rcases (renderChild_eq_error_iff unkept within).mp (Deed.failure?_child.mp fails) with
            fails | ⟨run, opens, below, failed⟩
          · exact .inl (.child ⟨active, undertaken⟩ fails)
          · obtain rfl := opens.template_eq
            exact .inr ⟨run, data, ⟨active, undertaken⟩, opens, below, failed⟩
    · rw [keeps?_of_not_active active] at keeps
      cases keeps
  · rintro (raises | ⟨run, data, renders, opens, below, failed⟩)
    · cases raises with
      | host active asks failed =>
          rw [keeps?_of_active active, asks]
          simp only [Option.bind_some, Deed.failure?_ask]
          exact ⟨_, _, failed, rfl⟩
      | next active moves misused =>
          rw [keeps?_of_active active, moves]
          exact Deed.failure?_misuse.mpr ⟨_, misused, rfl⟩
      | pop active closes misused =>
          rw [keeps?_of_active active, closes]
          exact Deed.failure?_misuse.mpr ⟨_, misused, rfl⟩
      | child renders fails =>
          rw [keeps?_of_active renders.1, renders.2]
          exact Deed.failure?_child.mpr ((renderChild_eq_error_iff unkept within).mpr (.inl fails))
    · rw [keeps?_of_active renders.1, renders.2]
      exact Deed.failure?_child.mpr
        ((renderChild_eq_error_iff unkept within).mpr (.inr ⟨run, opens, below, failed⟩))

/-- A failure that a run comes to without a partial's page: a call raises it, or a fault stops the
page and nothing is kept. -/
inductive Incurs (render : Render σ) (run : PageRun σ) : Failure → Prop
  | byCall {call : Invocation (RenderState σ)} {failure : Failure} (made : call ∈ run.calls render)
    (raises : render.Raises run.levels call failure) : Incurs render run failure
  | byPage {fault : Fault} {t : RenderState σ} (stopped : run.stop render = (.error fault, t))
    (unkept : t.session.failure = none) : Incurs render run (Failure.ofFault fault run.template)

variable {kept : String → Page → Prop}

/-- A run that may begin: nothing is kept, and there is room for just so many partials below it. -/
structure Ready (kept : String → Page → Prop) (run : PageRun σ) : Prop where
  idle : Idle kept run.start.session.depth run.start
  room : run.start.session.depth + run.levels = Session.depthLimit

section

variable (compiles : ∀ template page, render.library.compile template = .ok page →
    kept template page)
  {run inner : PageRun σ}

include compiles

theorem Ready.stop (ready : Ready kept run) :
    match run.stop render with
    | (.ok _, t) => Idle kept run.start.session.depth t
    | (.error fault, t) => Placed kept run.start.session.depth t ∧ fault.Explained render.library ∧
        ∀ failure, t.session.failure = some failure →
          ∃ call ∈ run.calls render, Idle kept run.start.session.depth call.found ∧
            render.keeps? (render.renderWithin run.levels) call = some failure := by
  have ended := printPage_idle compiles (renderWithin_settles compiles run.levels)
    run.page run.given
    ready.idle
  have same : run.stop render =
      (printPage (render.surroundings (render.renderWithin run.levels)) run.page run.given).run.run
        run.start := rfl
  rw [← same] at ended
  cases came : run.stop render with
  | mk result t =>
      rw [came] at ended
      cases result with
      | ok output => exact ended
      | error fault => exact ended

theorem Ready.found (ready : Ready kept run) (made : call ∈ run.calls render) :
    Idle kept run.start.session.depth call.found :=
  Surroundings.found_of_mem_calls
    (surroundings_keep compiles (renderWithin_settles compiles run.levels)) ready.idle made

theorem Ready.stopped (ready : Ready kept run) (made : call ∈ run.calls render) {failure : Failure}
    (keeps : render.keeps? (render.renderWithin run.levels) call = some failure) :
    run.failure? render = some failure := by
  have settles := renderWithin_settles compiles run.levels
  have answered := answer_keeps render settles call (ready.found compiles made) _ rfl
  cases came : (run.surroundings render).answer call with
  | mk result t =>
      have same : ((render.surroundings (render.renderWithin run.levels)).call call.site call.name
          call.args).run.run call.found = (result, t) := came
      rw [same] at answered
      cases result with
      | ok value =>
          rw [answered.2] at keeps
          cases keeps
      | error fault =>
          obtain ⟨fault', stopped⟩ :=
            Surroundings.printPage_of_call (surroundings_keep compiles settles) ready.idle made came
          have ended : run.stop render = (.error fault', t) := stopped
          unfold PageRun.failure?
          rw [ended]
          simp only [answered.2.2, keeps, Option.getD_some]

theorem Opens.ready {depth : Nat} (opens : render.Opens call template data inner)
    (found : Idle kept depth call.found) (room : depth + (inner.levels + 1) = Session.depthLimit) :
    Ready kept inner := by
  rcases opens with @⟨merged, page, compiled, levels, -, -, fetched⟩
  have entered : render.library.fetch call.found.entered.compiled template = (.ok page, compiled) :=
    fetched
  have begun := fetch_idle compiles template found.enter
  rw [run_fetch_of entered] at begun
  refine ⟨⟨⟨rfl, begun.compiled⟩, begun.failure⟩, ?_⟩
  have deeper : call.found.session.depth + 1 + levels = Session.depthLimit := by
    rw [found.depth]
    simp only at room
    omega
  exact deeper

theorem Ready.partial (ready : Ready kept run) (renders : render.Partial run inner) :
    Ready kept inner := by
  obtain ⟨call, made, data, -, opens, below⟩ := renders
  exact opens.ready compiles (ready.found compiles made) (below ▸ ready.room)

/-- What the run at the end of a chain of partials incurs, all runs of the chain fail with. -/
theorem failure?_of_chain {last : PageRun σ} {failure : Failure} (ready : Ready kept run)
    (chain : Relation.ReflTransGen (Partial render) run last)
    (incurs : render.Incurs last failure) :
    run.failure? render = some failure := by
  induction chain using Relation.ReflTransGen.head_induction_on with
  | refl =>
      cases incurs with
      | byCall made raises =>
          have found := ready.found compiles made
          refine ready.stopped compiles made
            ((keeps?_eq_some_iff found.failure ?_).mpr (.inl raises))
          rw [found.depth]
          exact ready.room
      | byPage stopped unkept =>
          unfold PageRun.failure?
          rw [stopped]
          simp only [unkept, Option.getD_none]
  | @head outer inner renders _ ih =>
      have failed := ih (ready.partial compiles renders)
      obtain ⟨call, made, data, rendersPartial, opens, below⟩ := renders
      have found := ready.found compiles made
      refine ready.stopped compiles made ((keeps?_eq_some_iff found.failure ?_).mpr
        (.inr ⟨inner, data, rendersPartial, opens, below, failed⟩))
      rw [found.depth]
      exact ready.room

/-- Whatever a run fails with is incurred at the end of a chain of partials. -/
theorem exists_chain (ready : Ready kept run) {failure : Failure}
    (failed : run.failure? render = some failure) :
    ∃ last, Relation.ReflTransGen (Partial render) run last ∧ render.Incurs last failure := by
  induction levels : run.levels using Nat.strong_induction_on generalizing run with
  | _ within ih =>
      have ended := ready.stop compiles
      have failed' := failed
      unfold PageRun.failure? at failed'
      cases stopped : run.stop render with
      | mk result t =>
          rw [stopped] at ended failed'
          cases result with
          | ok output => cases failed'
          | error fault =>
              cases stored : t.session.failure with
              | none =>
                  simp only [stored, Option.getD_none, Option.some.injEq] at failed'
                  exact ⟨run, .refl, failed' ▸ .byPage stopped stored⟩
              | some kept =>
                  simp only [stored, Option.getD_some, Option.some.injEq] at failed'
                  subst failed'
                  obtain ⟨call, made, found, keeps⟩ := ended.2.2 kept stored
                  have room : call.found.session.depth + run.levels = Session.depthLimit := by
                    rw [found.depth]
                    exact ready.room
                  rcases (keeps?_eq_some_iff found.failure room).mp keeps with
                    raises | ⟨inner, data, renders, opens, below, failed⟩
                  · exact ⟨run, .refl, .byCall made raises⟩
                  · have step : render.Partial run inner :=
                      ⟨call, made, data, renders, opens, below⟩
                    obtain ⟨last, chain, incurs⟩ :=
                      ih inner.levels (by omega) (ready.partial compiles step) failed rfl
                    exact ⟨last, .head step chain, incurs⟩

/-- A root render fails with what the run at the end of a chain of partials incurs, or because its
page leaves a loop open. -/
theorem root_eq_error_iff {page : Page} {data : ViewData} {start : RenderState σ}
    (ready : Ready kept (.root page data start)) {failure : Failure} :
    ((render.root page data).run start).1 = .error failure ↔
      (∃ last, Relation.ReflTransGen (Partial render) (.root page data start) last ∧
        render.Incurs last failure) ∨
      ∃ output t error, (PageRun.root page data start).stop render = (.ok output, t) ∧
        t.session.loops.verify LoopStack.empty.checkpoint = .error error ∧
        failure = .loopStack error := by
  cases stopped : (PageRun.root page data start).stop render with
  | mk result t =>
      cases result with
      | ok output =>
          have unfailed : (PageRun.root page data start).failure? render = none := by
            unfold PageRun.failure?
            rw [stopped]
          have ended : (render.root page data).run start = _ := root_of_output stopped
          rw [ended]
          constructor
          · intro failed
            refine .inr ⟨output, t, ?_⟩
            cases verified : t.session.loops.verify LoopStack.empty.checkpoint with
            | ok _ =>
                simp only [verified] at failed
                cases failed
            | error error =>
                simp only [verified] at failed
                cases failed
                exact ⟨error, rfl, rfl, rfl⟩
          · rintro (⟨last, chain, incurs⟩ | ⟨_, _, error, ⟨⟩, unclosed, rfl⟩)
            · rw [failure?_of_chain compiles ready chain incurs] at unfailed
              cases unfailed
            · simp only [unclosed]
              rfl
      | error fault =>
          have fails : (PageRun.root page data start).failure? render =
              some (t.session.failure.getD (Failure.ofFault fault page.template)) := by
            unfold PageRun.failure?
            rw [stopped]
            rfl
          have ended : (render.root page data).run start = _ := root_of_fault stopped
          rw [ended]
          constructor
          · rintro ⟨⟩
            exact .inl (exists_chain compiles ready fails)
          · rintro (⟨last, chain, incurs⟩ | ⟨_, _, _, ⟨⟩, _⟩)
            rw [failure?_of_chain compiles ready chain incurs] at fails
            cases fails
            rfl

end

end Render

end ThemeTemplates
