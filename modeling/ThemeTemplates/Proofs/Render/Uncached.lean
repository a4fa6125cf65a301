import ThemeTemplates.Proofs.Render.Caches
import ThemeTemplates.Proofs.Render.NotFound

/-!
# Renders without a cache

A render that compiles a page each time it is asked for, and notes no more than which templates have
compiled by then. A render that keeps pages does the same, as long as each page it keeps is the one
that its template still compiles to in the library of the other, and the libraries agree on the
rest.
-/

namespace ThemeTemplates

open Evaluation Evaluation.Companion

variable {σ : Type}

namespace Library

/-- The page of a template depends on its source and on the directives alone. -/
theorem compile_congr {library other : Library} {template : String}
    (loaded : library.loader.load template = other.loader.load template)
    (directives : library.directives = other.directives) :
    library.compile template = other.compile template := by
  unfold compile expandSource
  rw [loaded, directives]

/-- Whether the pages that one library keeps stand for what the other compiles: a page is kept for
just the templates that are old or noted, and it is the other's; both agree on templates without
one. -/
def Stands (library other : Library) (old : String → Bool) (compiled noted : Fields Page) : Prop :=
  ∀ name,
    match compiled.find? name with
    | some page => other.compile name = .ok page ∧ (old name || noted.contains name) = true
    | none => library.compile name = other.compile name ∧ (old name || noted.contains name) = false

variable {library other : Library} {old : String → Bool} {compiled noted : Fields Page}

theorem Stands.note (h : library.Stands other old compiled noted) {template : String} {page : Page}
    (kept : compiled.find? template = some page) (again : Page) :
    library.Stands other old compiled (noted.insert template again) := by
  intro name
  have stands := h name
  rw [Fields.contains_insert]
  by_cases same : name = template
  · subst same
    rw [kept] at stands ⊢
    exact ⟨stands.1, by simp⟩
  · simpa [same] using stands

theorem Stands.keep (h : library.Stands other old compiled noted) {template : String} {page : Page}
    (compiles : other.compile template = .ok page) :
    library.Stands other old (compiled.insert template page) (noted.insert template page) := by
  intro name
  have stands := h name
  rw [Fields.contains_insert, Fields.find?_insert]
  by_cases same : name = template
  · subst same
    rw [if_pos rfl]
    exact ⟨compiles, by simp⟩
  · simpa [same] using stands

theorem Stands.fetch (h : library.Stands other old compiled noted) (template : String) :
    match other.compile template with
    | .ok page => ∃ compiled', library.fetch compiled template = (.ok page, compiled') ∧
        library.Stands other old compiled' (noted.insert template page)
    | .error fault => library.fetch compiled template = (.error fault, compiled) := by
  have stands := h template
  unfold Library.fetch
  cases kept : compiled.find? template with
  | some page =>
      rw [kept] at stands
      rw [stands.1]
      exact ⟨compiled, rfl, h.note kept page⟩
  | none =>
      rw [kept] at stands
      rw [stands.1]
      cases compiles : other.compile template with
      | ok page => exact ⟨_, rfl, h.keep compiles⟩
      | error fault => rfl

end Library

namespace Render

open RenderState

/-- Compiles the page of a template, whether that has been done or not, and notes that it
compiles. -/
def recompile (render : Render σ) (template : String) : Evaluation (RenderState σ) Page :=
  ExceptT.mk fun state =>
    match render.library.compile template with
    | .ok page => (.ok page, { state with compiled := state.compiled.insert template page })
    | .error fault => (.error fault, state)

def plainSurroundings (render : Render σ) (renderer : Renderer σ) : Surroundings (RenderState σ) :=
  { render.surroundings renderer with load := render.recompile }

/-- Runs a template, keeping no page, with so many child renders inside each other at most. -/
def plainWithin (render : Render σ) : Nat → Renderer σ
  | 0, _, _ => Evaluation.complain (.nestedTooDeep Session.depthLimit)
  | levels + 1, template, given => do
    let page ← render.recompile template
    Evaluation.printPage (render.plainSurroundings (plainWithin render levels)) page given

def close (template : String) :
    Except Fault String × RenderState σ → Except Failure String × RenderState σ
  | (.ok output, stop) =>
    (((stop.session.loops.verify LoopStack.empty.checkpoint).mapError Failure.loopStack).map
      fun _ => output, stop)
  | (.error fault, stop) =>
    let (failure, left) := (takeFailure template fault).run stop
    (.error failure, left)

def plainRoot (render : Render σ) (page : Page) (data : ViewData) (start : RenderState σ) :
    Except Failure String × RenderState σ :=
  let surroundings := render.plainSurroundings (render.plainWithin Session.depthLimit)
  close page.template ((Evaluation.printPage surroundings page (context data)).run.run start)

theorem root_eq_close (render : Render σ) (page : Page) (data : ViewData) (start : RenderState σ) :
    (render.root page data).run start = close page.template
      ((Evaluation.printPage (render.surroundings (render.renderWithin Session.depthLimit)) page
        (context data)).run.run start) := by
  cases ran : (Evaluation.printPage
    (render.surroundings (render.renderWithin Session.depthLimit)) page
      (context data)).run.run start with
  | mk result stop =>
      cases result with
      | ok output => exact root_of_output ran
      | error fault => exact root_of_fault ran

variable {old : String → Bool} {render : Render σ} {library : Library}

theorem fetch_agree (template : String) :
    (apart (render.library.Stands library old)).Agree (render.fetch template)
      ({ render with library }.recompile template) := by
  intro s r h
  have fetched := h.compiled.fetch template
  change (apart _).Ends _ ((render.library.fetch s.compiled template).1,
      { s with compiled := (render.library.fetch s.compiled template).2 })
    (match library.compile template with
      | .ok page => (.ok page, { r with compiled := r.compiled.insert template page })
      | .error fault => (.error fault, r))
  cases compiles : library.compile template with
  | ok page =>
      rw [compiles] at fetched
      obtain ⟨compiled', fetched, stands⟩ := fetched
      rw [fetched]
      exact .value ⟨h.session, h.host, stands⟩
  | error fault =>
      rw [compiles] at fetched
      rw [fetched]
      exact .fault h

theorem surroundings_alike {renderer renderer' : Renderer σ}
    (renders : ∀ template given, (apart (render.library.Stands library old)).Agree
      (renderer template given) (renderer' template given)) :
    AnswersAlike (apart (render.library.Stands library old)) (render.surroundings renderer)
      ({ render with library }.plainSurroundings renderer') where
  functions := rfl
  call := call_agree render library renders
  load := fetch_agree
  searching := by
    intro template s r h
    have ended := fetch_agree template s r h
    change Apart _ ((render.fetch template).run.run s).2
      (({ render with library }.recompile template).run.run r).2
    generalize (render.fetch template).run.run s = one,
      ({ render with library }.recompile template).run.run r = two at ended ⊢
    cases ended with
    | value related => exact related
    | fault stopped => exact stopped

theorem renderWithin_agree (levels : Nat) (template : String) (given : Fields Value) :
    (apart (render.library.Stands library old)).Agree (render.renderWithin levels template given)
      ({ render with library }.plainWithin levels template given) := by
  induction levels generalizing template given with
  | zero => exact Agree.complain _
  | succ levels ih =>
      exact Agree.bind (fetch_agree template) fun page =>
        printPage_agree (surroundings_alike ih) page given

theorem close_apart {caches : Fields Page → Fields Page → Prop}
    {one two : Except Fault String × RenderState σ}
    (ended : (apart caches).Ends (fun _ => Apart caches) one two) (template : String) :
    (close template one).1 = (close template two).1 ∧
      Apart caches (close template one).2 (close template two).2 := by
  cases ended with
  | @value output stop stop' left =>
      refine ⟨?_, left⟩
      dsimp only [close]
      rw [left.session]
  | @fault fault stop stop' left =>
      have taken : stop.session = stop'.session := left.session
      refine ⟨congrArg (fun session : Session => Except.error
        (session.failure.getD (Failure.ofFault fault template))) taken, ?_⟩
      exact ⟨congrArg (fun session : Session => { session with failure := none }) taken, left.host,
        left.compiled⟩

theorem root_eq_plain (render : Render σ) {s r : RenderState σ}
    (h : Apart (render.library.Stands library old) s r)
    (page : Page) (data : ViewData) :
    ((render.root page data).run s).1 = ({ render with library }.plainRoot page data r).1 ∧
      Apart (render.library.Stands library old) ((render.root page data).run s).2
        ({ render with library }.plainRoot page data r).2 := by
  have alike : AnswersAlike (apart (render.library.Stands library old))
      (render.surroundings (render.renderWithin Session.depthLimit))
      ({ render with library }.plainSurroundings
        ({ render with library }.plainWithin Session.depthLimit)) :=
    surroundings_alike (renderWithin_agree Session.depthLimit)
  rw [root_eq_close]
  exact close_apart (printPage_agree alike page (context data) s r h) page.template

end Render

end ThemeTemplates
