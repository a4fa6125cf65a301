import ThemeTemplates.Command
import ThemeTemplates.Proofs.Render.NotFound
import ThemeTemplates.Proofs.Render.Requests

/-!
# A clean check

A check compiles every template once. If all of them compile, a template that does not is one that
there is not, and nothing that a render meets on its way is a compile error.
-/

namespace ThemeTemplates

open Evaluation

variable {σ : Type}

namespace Library

def Clean (library : Library) : Prop :=
  ∀ template fault, library.compile template = .error fault →
  library.loader.load template = .ok none

def failure? (library : Library) (template : String) : Option Failure :=
  match library.compile template with
  | .ok _ => none
  | .error fault => some (Failure.ofFault fault template)

def report (library : Library) (names : List String) : CheckReport where
  passed := names.filter fun name => (library.failure? name).isNone
  failed := names.filterMap fun name => (library.failure? name).map fun failure => (name, failure)

variable {library : Library}

theorem Clean.eq_missing (clean : library.Clean) {template : String} {fault : Fault}
    (failed : library.compile template = .error fault) : fault = .plain .missingTemplate none := by
  have absent := clean template fault failed
  cases refuses_iff.mpr failed with
  | missing => rfl
  | unreadable refused => cases absent.symm.trans refused
  | directives loaded | page loaded => cases absent.symm.trans loaded

theorem Clean.no_compileError (clean : library.Clean) {template : String} {failure : Failure}
    (fails : library.FailsToCompile template failure) : failure.compileError? = none := by
  obtain ⟨fault, failed, rfl⟩ := failsToCompile_iff.mp fails
  rw [clean.eq_missing failed]
  rfl

theorem report_cons (name : String) (names : List String) :
    library.report (name :: names) =
      match library.failure? name with
      | none => { library.report names with passed := name :: (library.report names).passed }
      | some failure =>
        { library.report names with failed := (name, failure) :: (library.report names).failed
          } := by
  unfold report
  rw [List.filter_cons, List.filterMap_cons]
  cases library.failure? name <;> rfl

theorem names_of_failed (names : List String) :
    (library.report names).failed.map Prod.fst =
      names.filter fun name => !(library.failure? name).isNone := by
  unfold report
  rw [List.map_filterMap]
  induction names with
  | nil => rfl
  | cons name rest ih =>
      rw [List.filterMap_cons, List.filter_cons, ih]
      cases library.failure? name <;> rfl

theorem perm_report (names : List String) :
    ((library.report names).passed ++ (library.report names).failed.map Prod.fst).Perm names := by
  rw [names_of_failed]
  exact List.filter_append_perm _ names

theorem clean_of_report {templates : Fields String}
    (stored : library.loader = Loader.ofTemplates templates)
    (clean : (library.report templates.keys).failed = []) : library.Clean := by
  intro template fault failed
  rw [stored]
  refine congrArg Except.ok (Option.eq_none_iff_forall_ne_some.mpr fun source found => ?_)
  have listed : template ∈ templates.keys :=
    List.mem_map_of_mem (f := Prod.fst) (Value.mem_of_lookup_eq_some found)
  have reported : (template, Failure.ofFault fault template) ∈
      (library.report templates.keys).failed :=
    List.mem_filterMap.mpr ⟨template, listed, by simp only [failure?, failed, Option.map_some]⟩
  rw [clean] at reported
  cases reported

end Library

theorem Fault.Explained.no_compileError {library : Library} {fault : Fault}
    (explained : fault.Explained library) (clean : library.Clean) (template : String) :
    (Failure.ofFault fault template).compileError? = none := by
  unfold Failure.ofFault
  cases carried : fault.carried? with
  | some failure =>
      rcases explained.carried failure carried with ⟨_, rfl⟩ | ⟨other, fault', failed, rejected⟩
      · rfl
      · rw [clean.eq_missing failed] at rejected
        cases rejected
  | none =>
      cases cause : fault.cause with
      | missingTemplate | complaint => rfl
      | unreadablePage reason =>
          obtain ⟨other, fault', failed, malformed⟩ := explained.malformed reason cause
          rw [clean.eq_missing failed] at malformed
          cases malformed

namespace Render

variable {render : Render σ} {levels : Nat} {call : Invocation (RenderState σ)} {template : String}
  {data : ViewData} {failure : Failure} {run : PageRun σ}

theorem PartialFails.no_compileError (clean : render.library.Clean)
    (fails : render.PartialFails levels call template data failure) :
      failure.compileError? = none := by
  cases fails with
  | defaults | nested | unclosed => rfl
  | uncompiled _ _ _ fails => exact clean.no_compileError fails

section

variable (clean : render.library.Clean) (ready : Ready (fun _ _ => True) run)

include clean ready

theorem Incurs.no_compileError (incurs : render.Incurs run failure) :
    failure.compileError? = none := by
  cases incurs with
  | byCall made raises =>
      cases raises with
      | host | next | pop => rfl
      | child _ fails => exact fails.no_compileError clean
  | byPage stopped unkept =>
      have anyPage : ∀ template page, render.library.compile template = .ok page → True :=
        fun _ _ _ => trivial
      have ended := ready.stop anyPage
      rw [stopped] at ended
      exact ended.2.1.no_compileError clean run.template

theorem Ready.no_compileError (failed : run.failure? render = some failure) :
    failure.compileError? = none := by
  have anyPage : ∀ template page, render.library.compile template = .ok page → True :=
    fun _ _ _ => trivial
  obtain ⟨last, leads, incurs⟩ := exists_chain anyPage ready failed
  exact incurs.no_compileError clean (ready.last anyPage leads)

end

theorem renderChild_no_compileError (call : Invocation (RenderState σ))
    (clean : render.library.Clean) {depth : Nat} (found : Idle (fun _ _ => True) depth call.found)
    (room : depth + levels = Session.depthLimit)
    (failed : ((render.renderChild (render.renderWithin levels) call.site template data).run
      call.found).1 = .error failure) : failure.compileError? = none := by
  rcases (renderChild_eq_error_iff found.failure (found.depth ▸ room)).mp failed with
    fails | ⟨inner, opens, below, failed⟩
  · exact fails.no_compileError clean
  · have ready := opens.ready (fun _ _ _ => trivial) found (below ▸ room)
    exact ready.no_compileError clean failed

theorem root_no_compileError (clean : render.library.Clean) {page : Page} {start : RenderState σ}
    (ready : Ready (fun _ _ => True) (.root page data start))
    (failed : ((render.root page data).run start).1 = .error failure) :
      failure.compileError? = none := by
  rcases (root_eq_error_iff (fun _ _ _ => trivial) ready).mp failed with
    ⟨last, leads, incurs⟩ | ⟨_, _, _, _, _, rfl⟩
  · exact incurs.no_compileError clean (ready.last (fun _ _ _ => trivial) leads)
  · rfl

end Render

namespace Engine

open Render

theorem checkEach_eq {engine : Engine σ}
    (cached : ∀ name page, (name, page) ∈ engine.compiled → engine.library.compile name = .ok page)
    (names : List String) :
    ∃ compiled, Command.checkEach engine names =
      (engine.library.report names, { engine with compiled }) := by
  induction names generalizing engine with
  | nil => exact ⟨engine.compiled, rfl⟩
  | cons name rest ih =>
      obtain ⟨compiled, fetched, valid⟩ := fetch_refresh cached name
      obtain ⟨compiled', checked⟩ := @ih { engine with compiled } valid
      refine ⟨compiled', ?_⟩
      unfold Command.checkEach compile
      simp only [fetched, checked, Library.report_cons, Library.failure?]
      cases engine.library.compile name <;> rfl

/-- A check of a new engine puts every template once, and in their order, among those that pass or
those that fail. If none fails, then as long as the library stays what it is nothing comes to a
compile error, whatever engine it belongs to by then: no compilation, no root render, and no child
render that a page or a host asks for below one. -/
theorem clean_check_lasts (engine : Engine σ) (templates : Fields String)
    (stored : engine.library.loader = Loader.ofTemplates templates)
    (ascending : templates.Ascending) (new : engine.compiled = []) :
    ∃ report checked, Command.check engine = (.ok report, checked) ∧
      templates.keys.Pairwise (· < ·) ∧
      report.passed.Sublist templates.keys ∧
      (report.failed.map Prod.fst).Sublist templates.keys ∧
      (report.passed ++ report.failed.map Prod.fst).Perm templates.keys ∧
      (report.failed = [] → ∀ {τ : Type} (later : Engine τ), later.library = engine.library →
        (∀ template failure, (later.compile template).1 = .error failure →
          failure.compileError? = none) ∧
        (∀ template data view failure, (later.renderRoot template data view).1 = .error failure →
          failure.compileError? = none) ∧
        ∀ view page data kept n run,
          InProgress (later.rendering view) (.root page data (later.beginning kept)) n run →
          ∀ call ∈ run.calls (later.rendering view), ∀ s template given,
            Requests (later.rendering view) run.levels call s template given →
            ∀ failure, (((later.rendering view).renderChild
                ((later.rendering view).renderWithin run.levels) call.site template given).run
                  s).1 =
              .error failure → failure.compileError? = none) := by
  have nothing : ∀ name page, (name, page) ∈ engine.compiled →
      engine.library.compile name = .ok page := by
    rw [new]
    exact fun _ _ hmem => nomatch hmem
  have listed : engine.library.loader.list = .ok templates.keys := by rw [stored]; rfl
  obtain ⟨compiled, checked⟩ := checkEach_eq nothing templates.keys
  refine ⟨engine.library.report templates.keys, { engine with compiled }, ?_, ?_, ?_, ?_,
    Library.perm_report _, fun none τ later same => ?_⟩
  · unfold Command.check
    simp only [listed, checked]
  · exact List.pairwise_map.mpr ascending
  · exact List.filter_sublist
  · rw [Library.names_of_failed]
    exact List.filter_sublist
  · have clean : later.library.Clean := same ▸ Library.clean_of_report stored none
    have begun : ∀ page data kept,
        Ready (fun _ _ => True) (.root page data (later.beginning kept)) := fun page data kept =>
      ready_root page data _ _ kept
    refine ⟨fun template failure failed => ?_, fun template data view failure failed => ?_, ?_⟩
    · exact clean.no_compileError (failsToCompile_of_compile failed)
    · rcases later.renderRoot_cases template data view with
        ⟨_, refusal, _, -, refused, why⟩ | ⟨page, given, compiled, result, stop, -, ran, rendered⟩
      · rw [refused] at failed
        cases failed
        rcases why with fails | ⟨source, -, rfl⟩
        · exact clean.no_compileError fails
        · rfl
      · rw [rendered] at failed
        have reported : (((later.rendering view).root page given).run
            (later.beginning compiled)).1 =
            .error failure := by
          rw [ran]
          exact failed
        exact root_no_compileError clean (begun page given compiled) reported
    · intro view page data kept n run within call made s template given requested failure failed
      have anyPage : ∀ template page,
          (later.rendering view).library.compile template = .ok page → True := fun _ _ _ => trivial
      obtain ⟨ready, -⟩ := within.ready anyPage (begun page data kept)
      have found := ready.requested anyPage made requested
      exact renderChild_no_compileError { call with found := s } clean found ready.room failed

/-- A view that renders a partial and includes a template that is not there. -/
def smallTheme : Fields String :=
  [("partials.item", "@auth hi @endauth"),
    ("views.home", "@loop @partial('item') @endloop \x7b% include ['gone', 'partials.item'] %\x7d")]

def smallEngine : Engine Unit where
  library := (ofTemplates smallTheme).library
  host := Host.none
  hostState := ()

theorem smallEngine_stays_clean : ∃ report checked,
    Command.check smallEngine = (.ok report, checked) ∧ report.failed = [] ∧
      ∀ (later : Engine Nat), later.library = smallEngine.library → ∀ data view failure,
        (later.renderRoot "views.home" data view).1 = .error failure →
        failure.compileError? = none := by
  have ascending : smallTheme.Ascending := by
    unfold Fields.Ascending
    decide
  obtain ⟨report, checked, came, -, -, -, -, lasts⟩ :=
    clean_check_lasts smallEngine smallTheme rfl ascending rfl
  have clean : ((Command.check smallEngine).1.map fun report => report.failed.isEmpty).toOption =
      some true := by
    decide +kernel
  rw [came] at clean
  have nothing : report.failed = [] := List.isEmpty_iff.mp (Option.some.inj clean)
  exact ⟨report, checked, came, nothing, fun later same =>
    (lasts nothing later same).2.1 "views.home"⟩

end Engine

end ThemeTemplates
