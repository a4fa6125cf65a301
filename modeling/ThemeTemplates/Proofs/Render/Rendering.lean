import ThemeTemplates.Engine
import ThemeTemplates.Proofs.Data.Fields
import ThemeTemplates.Proofs.Page.Avoidance

/-!
# Root renders of an engine

An engine fetches the page of a template, puts its data together and renders it in a fresh session.
The pages it keeps are those that its templates compile to.
-/

namespace ThemeTemplates

variable {σ : Type}

namespace Library

variable {library : Library} {compiled : Fields Page}

theorem compile_of_source {template source : String}
    (loaded : library.loader.load template = .ok (some source)) :
    library.compile template =
      match ThemeTemplates.expand library.directives source.toList with
      | .error located =>
        .error (.carrying (.compile template located.line located.error) none)
      | .ok code => (Page.parse template code).mapError (Fault.ofPageError template) := by
  unfold compile expandSource
  rw [loaded]
  simp only [Except.mapError, bind, Except.bind]
  cases ThemeTemplates.expand library.directives source.toList <;> rfl

/-- The fault with which a template does not compile. -/
inductive Refuses (library : Library) (template : String) : Fault → Prop
  | missing (absent : library.loader.load template = .ok none) :
    Refuses library template (.plain .missingTemplate none)
  | unreadable {failure : Failure} (refused : library.loader.load template = .error failure) :
    Refuses library template (.carrying failure none)
  | directives {source : String} {located : LocatedError}
    (loaded : library.loader.load template = .ok (some source))
    (rejected : ThemeTemplates.expand library.directives source.toList = .error located) :
    Refuses library template (.carrying (.compile template located.line located.error) none)
  | page {source : String} {code : List Char} {error : PageError}
    (loaded : library.loader.load template = .ok (some source))
    (expanded : ThemeTemplates.expand library.directives source.toList = .ok code)
    (rejected : Page.parse template code = .error error) :
    Refuses library template (Fault.ofPageError template error)

theorem refuses_iff {template : String} {fault : Fault} :
    library.Refuses template fault ↔ library.compile template = .error fault := by
  constructor
  · intro refuses
    cases refuses with
    | missing absent =>
        unfold compile
        rw [absent]
        rfl
    | unreadable refused =>
        unfold compile
        rw [refused]
        rfl
    | directives loaded rejected => rw [compile_of_source loaded, rejected]
    | page loaded expanded rejected =>
        simp only [compile_of_source loaded, expanded, rejected, Except.mapError]
  · intro failed
    cases loaded : library.loader.load template with
    | error failure =>
        unfold compile at failed
        rw [loaded] at failed
        cases failed
        exact .unreadable loaded
    | ok source? =>
        cases source? with
        | none =>
            unfold compile at failed
            rw [loaded] at failed
            cases failed
            exact .missing loaded
        | some source =>
            rw [compile_of_source loaded] at failed
            cases expanded : ThemeTemplates.expand library.directives source.toList with
            | error located =>
                rw [expanded] at failed
                cases failed
                exact .directives loaded expanded
            | ok code =>
                simp only [expanded] at failed
                cases rejected : Page.parse template code with
                | ok page =>
                    rw [rejected] at failed
                    cases failed
                | error error =>
                    rw [rejected] at failed
                    cases failed
                    exact .page loaded expanded rejected

theorem mem_fetch {template name : String} {page : Page}
    (h : (name, page) ∈ (library.fetch compiled template).2) :
    (name, page) ∈ compiled ∨ name = template ∧ library.compile template = .ok page := by
  unfold fetch at h
  split at h
  · exact .inl h
  split at h
  · next new compiles =>
      rcases Fields.mem_insert h with same | known
      · cases same
        exact .inr ⟨rfl, compiles⟩
      · exact .inl known
  · exact .inl h

theorem fetch_eq_ok {template : String} {page : Page} {compiled' : Fields Page}
    (h : library.fetch compiled template = (.ok page, compiled')) :
    (template, page) ∈ compiled ∨ library.compile template = .ok page := by
  unfold fetch at h
  split at h
  · next found =>
      cases h
      exact .inl (Value.mem_of_lookup_eq_some found)
  split at h
  · next compiles =>
      cases h
      exact .inr compiles
  · cases h

theorem fetch_eq_error {template : String} {fault : Fault} {compiled' : Fields Page}
    (h : library.fetch compiled template = (.error fault, compiled')) :
    compiled.find? template = none ∧ library.compile template = .error fault := by
  unfold fetch at h
  split at h
  · cases h
  · next new =>
      split at h
      · cases h
      · next fails =>
          cases h
          exact ⟨new, fails⟩

theorem fetch_of_error {template : String} {fault : Fault} (new : compiled.find? template = none)
    (h : library.compile template = .error fault) :
    library.fetch compiled template = (.error fault, compiled) := by
  simp only [fetch, new, h]

end Library

namespace Render

variable {library : Library}

/-- A page that is fetched is the one that its template compiles to, whether it was kept or not. -/
theorem fetch_of_cached {compiled : Fields Page}
    (cached : ∀ name page, (name, page) ∈ compiled → library.compile name = .ok page)
    (template : String) :
    (library.fetch compiled template).1 = library.compile template ∧
      ∀ name page, (name, page) ∈ (library.fetch compiled template).2 →
        library.compile name = .ok page := by
  constructor
  · cases fetched : library.fetch compiled template with
    | mk result compiled' =>
        cases result with
        | error fault => exact (Library.fetch_eq_error fetched).2.symm
        | ok page =>
            rcases Library.fetch_eq_ok fetched with known | compiles
            · exact (cached template page known).symm
            · exact compiles.symm
  · intro name page hmem
    rcases Library.mem_fetch hmem with known | ⟨rfl, compiles⟩
    · exact cached name page known
    · exact compiles

end Render

namespace Engine

open Render

def rendering (engine : Engine σ) (view : Option String) : Render σ where
  library := engine.library
  host := engine.host
  defaults := engine.defaults
  view
  baseItem := engine.host.currentPost engine.hostState

def beginning (engine : Engine σ) (compiled : Fields Page) : RenderState σ where
  session := { currentItem := engine.host.currentPost engine.hostState }
  host := engine.hostState
  compiled

theorem fetch_refresh {engine : Engine σ}
    (cached : ∀ name page, (name, page) ∈ engine.compiled → engine.library.compile name = .ok page)
    (template : String) :
    ∃ compiled, engine.refresh.fetch template =
        ((engine.library.compile template).mapError fun fault => Failure.ofFault fault template,
          { engine with compiled }) ∧
      ∀ name page, (name, page) ∈ compiled → engine.library.compile name = .ok page := by
  obtain ⟨kept, refreshed, valid⟩ : ∃ kept, engine.refresh = { engine with compiled := kept } ∧
      ∀ name page, (name, page) ∈ kept → engine.library.compile name = .ok page := by
    unfold refresh
    split
    · exact ⟨[], rfl, fun _ _ hmem => nomatch hmem⟩
    · exact ⟨engine.compiled, rfl, cached⟩
  obtain ⟨same, valid⟩ := fetch_of_cached valid template
  refine ⟨_, ?_, valid⟩
  rw [refreshed, ← same]
  rfl

theorem renderRoot_of_run {engine : Engine σ} {template : String} {data given : ViewData}
    {view : Option String} {page : Page} {compiled : Fields Page} {result : Except Failure String}
    {stop : RenderState σ}
    (fetched : engine.refresh.fetch template = (.ok page, { engine with compiled }))
    (resolved : engine.rootData template data = .ok given)
    (ran : ((engine.rendering view).root page given).run (engine.beginning compiled) =
      (result, stop)) :
    engine.renderRoot template data view =
      (result, { engine with hostState := stop.host, compiled := stop.compiled }) := by
  have again : ({ engine with compiled } : Engine σ).rootData template data = .ok given := resolved
  unfold rendering beginning at ran
  simp only [renderRoot, fetched, again, bind, Except.bind, pure, Except.pure, ran]

end Engine

end ThemeTemplates
