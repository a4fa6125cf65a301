import ThemeTemplates.Command
import ThemeTemplates.Files.Loader
import ThemeTemplates.Proofs.Render.Nesting
import ThemeTemplates.Proofs.Render.NotFound

/-!
# Page links that are passed over

The host of a fixture renders page links with a partial of the theme, and passes over the lack of
this partial. A partial that is there and fails is passed over only if it strays: a run of it
includes or extends a template that is not there, which is reported under the name of the partial.
Any other failure of it stops the page that asked for the links, and with it the whole render.
-/

namespace ThemeTemplates

open Evaluation

variable {σ : Type}

namespace PageRun

theorem Strays.incurs {render : Render σ} {run : PageRun σ} (strays : run.Strays render) :
    render.Incurs run (.templateNotFound run.template) := by
  obtain ⟨fault, t, stopped, unkept, uncarried, cause⟩ := strays.stopped
  have reports : Failure.ofFault fault run.template = .templateNotFound run.template := by
    simp only [Failure.ofFault, uncarried, cause]
  exact reports ▸ .byPage stopped unkept

end PageRun

namespace Render

variable {render : Render σ} {name template : String} {data : ViewData} {levels depth : Nat}
  {call : Invocation (RenderState σ)}

/-- The partial of a call leads to a run of some template that strays. -/
def LeadsAstray (render : Render σ) (levels : Nat) (call : Invocation (RenderState σ))
    (template : String) (data : ViewData) (name : String) : Prop :=
  ∃ first last, render.Opens call template data first ∧ levels = first.levels + 1 ∧
    render.Leads first last ∧ last.template = name ∧ last.Strays render

/-- A partial reports a template that is there as missing exactly if it leads to a run of it that
strays. -/
theorem renderChild_reports_iff
    (honest : ∀ template, render.library.loader.load template ≠ .error (.templateNotFound name))
    (present : render.library.loader.load name ≠ .ok none) (idle : Idle Named depth call.found)
    (room : depth + levels = Session.depthLimit) :
    ((render.renderChild (render.renderWithin levels) call.site template data).run call.found).1 =
        .error (.templateNotFound name) ↔
      render.LeadsAstray levels call template data name := by
  have within : call.found.session.depth + levels = Session.depthLimit := idle.depth ▸ room
  have compiles := named_of_compile render
  rw [renderChild_eq_error_iff idle.failure within]
  constructor
  · rintro (fails | ⟨first, opens, below, failed⟩)
    · cases fails with
      | uncompiled _ _ _ fails => exact absurd (fails.missing_of_notFound honest).2 present
    · have ready := opens.ready compiles idle (below ▸ room)
      obtain ⟨last, leads, same, strays⟩ :=
        (ready.missing_or_strays honest failed).resolve_left present
      exact ⟨first, last, opens, below, leads, same, strays⟩
  · rintro ⟨first, last, opens, below, leads, rfl, strays⟩
    have ready := opens.ready compiles idle (below ▸ room)
    exact .inr ⟨first, opens, below, failure?_of_chain compiles ready leads strays.incurs⟩

theorem Ready.stopped_by_host {kept : String → Page → Prop}
    (compiles : ∀ template page, render.library.compile template = .ok page → kept template page)
    {run : PageRun σ} (ready : Ready kept run) (made : call ∈ run.calls render)
    {failure : Failure} (raises : render.Raises run.levels call failure) :
    run.failure? render = some failure := by
  have found := ready.found compiles made
  refine ready.stopped compiles made ((keeps?_eq_some_iff found.failure ?_).mpr (.inl raises))
  exact found.depth ▸ ready.room

end Render

/-! ### The host of a fixture -/

namespace HostAction

def Childless {α : Type} : HostAction σ α → Prop
  | answer _ | fail _ => True
  | look resume => ∀ view, (resume view).Childless
  | readState resume => ∀ state, (resume state).Childless
  | writeState _ resume => resume.Childless
  | renderChild .. => False

theorem childless_anyOf {α : Type} {ask : α → HostAction σ Bool} (answers : α → Bool)
    (asks : ∀ item, ask item = answer (answers item)) (items : List α) :
    (anyOf ask items).Childless := by
  induction items with
  | nil => trivial
  | cons item items ih =>
      unfold anyOf
      rw [asks]
      show (if answers item = true then answer true else anyOf ask items).Childless
      split
      · trivial
      · exact ih

end HostAction

namespace Render

variable {α : Type} {render : Render σ} {renderer : Renderer σ} {site : Site}

theorem HostSteps.childless {start rest : HostAction σ α × RenderState σ}
    (comes : HostSteps render renderer site start rest) (childless : start.1.Childless) :
    rest.1.Childless := by
  induction comes with
  | refl => exact childless
  | tail _ step ih =>
      cases step with
      | look => exact ih _
      | readState => exact ih _
      | writeState => exact ih
      | renderChild => exact ih.elim

end Render

namespace Fixture

open Render

def links : Except Failure String → Except HostError String
  | .ok output => .ok output
  | .error (.templateNotFound name) =>
    if name == paginationPartial then .ok "" else .error (.failure (.templateNotFound name))
  | .error failure => .error (.failure failure)

theorem links_missing : links (.error (.templateNotFound paginationPartial)) = .ok "" := by
  unfold links
  exact if_pos (beq_self_eq_true paginationPartial)

theorem links_error {failure : Failure} (other : failure ≠ .templateNotFound paginationPartial) :
    links (.error failure) = .error (.failure failure) := by
  cases failure with
  | templateNotFound name =>
      have differs : ¬ (name == paginationPartial) = true :=
        fun same => other (congrArg Failure.templateNotFound (beq_iff_eq.mp same))
      exact if_neg differs
  | _ => rfl

theorem links_eq_ok_iff {result : Except Failure String} {text : String} :
    links result = .ok text ↔
      result = .ok text ∨ text = "" ∧ result = .error (.templateNotFound paginationPartial) := by
  cases result with
  | ok output => simp [links]
  | error failure =>
      by_cases missing : failure = .templateNotFound paginationPartial
      · rw [missing, links_missing]
        simp [eq_comm]
      · rw [links_error missing]
        simp [missing]

theorem perform_paginate (render : Render σ) (renderer : Renderer σ) (site : Site) (config : Data)
    (s : RenderState σ) :
    (render.perform renderer site (paginate config)).run s =
      (links ((render.renderChild renderer site paginationPartial [("pagination", config)]).run
        s).1, ((render.renderChild renderer site paginationPartial [("pagination", config)]).run
          s).2) := by
  unfold paginate perform
  rw [StateT.run_bind]
  generalize (render.renderChild renderer site paginationPartial [("pagination", config)]).run s =
    came
  obtain ⟨result, t⟩ := came
  cases result with
  | ok output => rfl
  | error failure =>
      cases failure with
      | templateNotFound name =>
          show (render.perform renderer site (if name == paginationPartial then HostAction.answer ""
            else .fail (.failure (.templateNotFound name)))).run t =
              (if name == paginationPartial then .ok "" else .error _, t)
          split <;> rfl
      | _ => rfl

theorem childless_menu (fixture : Fixture) (name : Data) :
    (fixture.menu name : HostAction σ Data).Childless := by
  unfold menu
  split
  · split <;> trivial
  · trivial

theorem childless_or_paginate (fixture : Fixture) {render : Render Unit}
    (hosted : render.host = fixture.host) {name : String} {args : List Value} {α : Type}
    {asked : String} {action : HostAction Unit α} {yield : α → Value}
    (asks : render.undertakes? name args = some (.ask asked action yield)) :
    action.Childless ∨ ∃ config, Deed.ask asked action yield =
      .ask "paginate" (paginate config) Value.markup := by
  unfold undertakes? at asks
  rw [hosted, if_neg (by exact Bool.false_ne_true)] at asks
  obtain ⟨function, -, deed⟩ := Option.bind_eq_some_iff.mp asks
  unfold deed? at deed
  rw [hosted] at deed
  split at deed
  -- page links
  case h_5 | h_6 => exact .inr ⟨_, (Option.some.inj deed).symm⟩
  -- a step, a close and partials ask nothing
  case h_1 | h_2 | h_8 =>
    obtain ⟨_, -, other⟩ := Option.map_eq_some_iff.mp deed
    cases other
  case h_7 | h_16 => cases deed
  case h_4 =>
    cases deed
    exact .inl (childless_menu fixture _)
  case h_9 =>
    cases deed
    exact .inl fun _ => trivial
  case h_12 | h_13 =>
    cases deed
    exact .inl (HostAction.childless_anyOf _ (fun _ => rfl) _)
  all_goals
    cases deed
    exact .inl trivial

variable {fixture : Fixture} {render : Render Unit}

/-- A call that asks a fixture for page links under some configuration. -/
structure AsksForLinks (render : Render Unit) (call : Invocation (RenderState Unit))
    (config : Data) :
    Prop where
  active : Active call.site
  asks : render.undertakes? call.name call.args =
    some (.ask "paginate" (paginate config) Value.markup)

/-- A child that is asked for is the partial of a call, or the partial for page links that the host
renders right away. -/
theorem cases_of_requests (hosted : render.host = fixture.host) {levels : Nat}
    {call : Invocation (RenderState Unit)} {s : RenderState Unit} {template : String}
    {data : ViewData} (requested : Requests render levels call s template data) :
    s = call.found ∧ (render.RendersPartial call template data ∨
      ∃ config, AsksForLinks render call config ∧ template = paginationPartial ∧
        data = [("pagination", config)]) := by
  cases requested with
  | own renders => exact ⟨rfl, .inl renders⟩
  | host active asks comes =>
      rcases childless_or_paginate fixture hosted asks with childless | ⟨config, same⟩
      · exact (comes.childless childless).elim
      · cases same
        rcases comes.cases_head with same | ⟨_, step, rest⟩
        · cases same
          exact ⟨rfl, .inr ⟨config, ⟨active, asks⟩, rfl, rfl⟩⟩
        · -- once the host has been told of the partial it answers or fails
          cases step with
          | renderChild rendered =>
              refine (HostSteps.childless rest ?_).elim
              dsimp only
              split
              · trivial
              · split <;> trivial
              · trivial

theorem AsksForLinks.stops {kept : String → Page → Prop}
    (compiles : ∀ template page, render.library.compile template = .ok page → kept template page)
    {run : PageRun Unit} {call : Invocation (RenderState Unit)} {config : Data} {failure : Failure}
    (asked : AsksForLinks render call config) (ready : Ready kept run)
    (made : call ∈ run.calls render)
    (failed : ((render.renderChild (render.renderWithin run.levels) call.site paginationPartial
      [("pagination", config)]).run call.found).1 = .error failure)
    (other : failure ≠ .templateNotFound paginationPartial) :
    run.failure? render = some (.collaborator "paginate" (.failure failure)) := by
  refine ready.stopped_by_host compiles made (.host asked.active asked.asks (t := ?_) ?_)
  rotate_left
  · rw [perform_paginate, failed, links_error other]

/-- A failure that is not passed over comes to the root, whatever it is reported as there. -/
theorem root_fails {kept : String → Page → Prop}
    (compiles : ∀ template page, render.library.compile template = .ok page → kept template page)
    (hosted : render.host = fixture.host) {root run : PageRun Unit} {n : Nat}
    (begun : Ready kept root) (within : InProgress render root n run) {failure : Failure}
    (failed : run.failure? render = some failure)
    (other : failure ≠ .templateNotFound paginationPartial) :
    ∃ reported, root.failure? render = some reported := by
  induction within generalizing failure with
  | root => exact ⟨failure, failed⟩
  | @child n outer inner call s data outside made requested opens below ih =>
      have ready := (outside.ready compiles begun).1
      have found := ready.found compiles made
      have room : call.found.session.depth + outer.levels = Session.depthLimit :=
        found.depth ▸ ready.room
      obtain ⟨rfl, renders | ⟨config, asked, same, rfl⟩⟩ := cases_of_requests hosted requested
      · have keeps := (keeps?_eq_some_iff found.failure room).mpr
          (.inr ⟨inner, data, renders, opens, below, failed⟩)
        exact ih (ready.stopped compiles made keeps) other
      · rw [same] at opens
        have fails := (renderChild_eq_error_iff found.failure room).mpr
          (.inr ⟨inner, opens, below, failed⟩)
        exact ih (asked.stops compiles ready made fails other) Failure.noConfusion

end Fixture

namespace FileLoader

variable {files : FileLoader} {template : String}

/-- No root has a template, as far as the loader can tell, exactly if none has a file for it. -/
theorem load_eq_none_iff : files.load template = .ok none ↔ files.find? template = none := by
  unfold load
  split
  · simpa
  · split <;> simp_all

theorem load_ne_error {name : String} : files.load template ≠ .error (.templateNotFound name) := by
  unfold load
  split
  · nofun
  · split <;> simp

end FileLoader

namespace Command

open Render Fixture

/-- An engine for a fixture over the templates in some files, with some pages compiled so far. -/
def themeEngine (settings : Settings) (files : FileLoader) (fixture : Fixture)
    (compiled : Fields Page) : Engine Unit :=
  { engine settings files.toLoader fixture with compiled }

/-- Page links never hide a failing partial, unless it strays. Where some root has the partial for
page links, a call for them is answered with what the partial renders, and with nothing exactly if
the partial leads to a run of itself that includes or extends a template that is not there. If the
partial fails in any other way, the host fails with its failure, which stops the page that asked,
and the whole render fails. -/
theorem paginate_hides_strays_only (settings : Settings) (files : FileLoader) (fixture : Fixture)
    (compiled : Fields Page) (kept : (themeEngine settings files fixture compiled).KeepsNames)
    (present : (files.find? paginationPartial).isSome) {template : String} {data : ViewData}
    {view : Option String} {root run : PageRun Unit} {n : Nat}
    {call : Invocation (RenderState Unit)} {config : Data}
    (begins : (themeEngine settings files fixture compiled).Begins template data root)
    (within : InProgress ((themeEngine settings files fixture compiled).rendering view) root n run)
    (made : call ∈ run.calls ((themeEngine settings files fixture compiled).rendering view))
    (asked : AsksForLinks ((themeEngine settings files fixture compiled).rendering view)
      call config) :
    let engine := themeEngine settings files fixture compiled
    let render := engine.rendering view
    let child := ((render.renderChild (render.renderWithin run.levels) call.site paginationPartial
      [("pagination", config)]).run call.found).1
    let answer := ((render.perform (render.renderWithin run.levels) call.site (paginate config)).run
      call.found).1
    let astray := render.LeadsAstray run.levels call paginationPartial [("pagination", config)]
      paginationPartial
    (∀ text, answer = .ok text ↔ child = .ok text ∨ text = "" ∧ astray) ∧
    ∀ failure, child = .error failure → ¬ astray →
      answer = .error (.failure failure) ∧
      run.failure? render = some (.collaborator "paginate" (.failure failure)) ∧
      ∃ reported, (engine.renderRoot template data view).1 = .error reported := by
  intro engine render child answer astray
  have compiles := named_of_compile render
  have begun : Ready Named root := begins.ready kept
  have ready := (within.ready compiles begun).1
  have reports : child = .error (.templateNotFound paginationPartial) ↔ astray := by
    refine renderChild_reports_iff (fun _ => FileLoader.load_ne_error) ?_
      (ready.found compiles made) ready.room
    rw [Option.isSome_iff_ne_none] at present
    exact fun absent => present (FileLoader.load_eq_none_iff.mp absent)
  have answered : answer = links child := congrArg Prod.fst (perform_paginate ..)
  refine ⟨fun text => ?_, fun failure failed straight => ?_⟩
  · rw [answered, links_eq_ok_iff, reports]
  · have other : failure ≠ .templateNotFound paginationPartial :=
      fun same => straight (reports.mp (failed.trans (congrArg Except.error same)))
    have stopped := asked.stops compiles ready made failed other
    refine ⟨by rw [answered, failed, links_error other], stopped, ?_⟩
    have hosted : render.host = fixture.host := rfl
    obtain ⟨reported, failed⟩ := root_fails compiles hosted begun within stopped
      Failure.noConfusion
    obtain ⟨fetched, resolved⟩ := begins
    refine ⟨reported, ?_⟩
    have ends := (root_eq_error_iff compiles begun).mpr (.inl (exists_chain compiles begun failed))
    rw [Engine.renderRoot_of_run fetched resolved rfl]
    exact ends

/-- A theme whose partial for page links includes a template that is not there. -/
def strayTheme : FileLoader where
  tree := { files := [
    (["c", "partials", "pagination.blade.html"], "\x7b% include 'gone' %\x7d".toUTF8),
    (["c", "index.blade.html"], "[@paginate]".toUTF8)] }
  roots := ["c"]
  extension := ".blade.html"

def linksPage : Page :=
  ⟨"index", [.echo (.call 1 "__paginate" [.constant 1 .none])]⟩

abbrev strayEngine : Engine Unit :=
  themeEngine {} strayTheme {} [("index", linksPage)]

def linksRun : PageRun Unit :=
  .root linksPage [("post", .null)] (strayEngine.beginning [("index", linksPage)])

def linksCall : Invocation (RenderState Unit) :=
  ⟨⟨"index", { given := linksRun.given }⟩, "__paginate", [.none], linksRun.start⟩

theorem linksCall_made : linksCall ∈ linksRun.calls (strayEngine.rendering none) := by
  have noted : linksRun.calls (strayEngine.rendering none) = [linksCall] :=
    Surroundings.calls_echo _ rfl rfl rfl _
  rw [noted]
  exact List.mem_singleton_self _

theorem strayEngine_keepsNames : strayEngine.KeepsNames := by
  rintro name page (_ | ⟨_, ⟨⟩⟩)
  rfl

theorem strayLinks_passed_over :
    strayEngine.Begins "index" [] linksRun ∧
    linksCall ∈ linksRun.calls (strayEngine.rendering none) ∧
    AsksForLinks (strayEngine.rendering none) linksCall (.record []) ∧
    (((strayEngine.rendering none).perform
      ((strayEngine.rendering none).renderWithin linksRun.levels)
      linksCall.site (paginate (.record []))).run linksCall.found).1 = .ok "" ∧
    (strayEngine.rendering none).LeadsAstray linksRun.levels linksCall paginationPartial
      [("pagination", .record [])] paginationPartial := by
  have begins : strayEngine.Begins "index" [] linksRun := .intro rfl rfl
  have asks : AsksForLinks (strayEngine.rendering none) linksCall (.record []) := ⟨rfl, rfl⟩
  obtain ⟨answered, -⟩ := paginate_hides_strays_only {} strayTheme {} [("index", linksPage)]
    strayEngine_keepsNames (by decide +kernel) begins .root linksCall_made asks
  have failed : (((strayEngine.rendering none).renderChild
      ((strayEngine.rendering none).renderWithin linksRun.levels) linksCall.site paginationPartial
      [("pagination", .record [])]).run linksCall.found).1 =
        .error (.templateNotFound paginationPartial) :=
    Failure.error_of_missing (by decide +kernel)
  have empty : (((strayEngine.rendering none).perform
      ((strayEngine.rendering none).renderWithin linksRun.levels) linksCall.site
      (paginate (.record []))).run linksCall.found).1 = .ok "" := by
    rw [perform_paginate, failed, links_missing]
  refine ⟨begins, linksCall_made, asks, empty, ?_⟩
  rcases (answered "").mp empty with output | ⟨-, astray⟩
  · cases failed.symm.trans output
  · exact astray

/-- The partial is there and fails, and yet the page is rendered, without links. -/
theorem strayTheme_hides_links :
    (strayTheme.find? paginationPartial).isSome ∧
    ((Command.engine {} strayTheme.toLoader {}).render paginationPartial []).1.toOption = none ∧
    (Command.render (Command.engine {} strayTheme.toLoader {}) "index" false []).1.toOption =
      some "[]" := by
  refine ⟨?_, ?_, ?_⟩ <;> decide +kernel

end Command

end ThemeTemplates
