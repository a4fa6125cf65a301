import ThemeTemplates.Proofs.Render.Layers
import ThemeTemplates.Proofs.Render.Nesting

/-!
# One rule of precedence

What the layers say is what renders find. A root render is the run of a page that begins with the
layers of the root; a partial that is asked for anywhere below it is refused, or it is the run of a
page one link further down the chain. So the rule holds for every render that goes on.
-/

namespace ThemeTemplates

open Evaluation

variable {σ : Type}

namespace Render

variable {render : Render σ} {root run inner : PageRun σ} {links : List Link}
  {call : Invocation (RenderState σ)} {s : RenderState σ} {template : String} {explicit : ViewData}

/-- What a partial at the end of a chain fails with before its page runs. -/
inductive Refused (render : Render σ) (links : List Link) (template : String) : Failure → Prop
  | defaults {source : HostError} (failed : render.defaults template = .error source) :
    Refused render links template (.collaborator "defaults" source)
  | nested (full : links.length = Session.depthLimit) :
    Refused render links template (.evaluation template 0 (.nestedTooDeep Session.depthLimit))
  | uncompiled {failure : Failure} (fails : render.library.FailsToCompile template failure) :
    Refused render links template failure

/-- What comes of a partial that a call at the end of a chain asks for: it is refused, or it comes
to what its page does one link further down. -/
def GoesOn (render : Render σ) (root : PageRun σ) (links : List Link) (run : PageRun σ)
    (call : Invocation (RenderState σ)) (s : RenderState σ) (template : String)
    (explicit : ViewData) :
    Prop :=
  let rendered := (render.renderChild (render.renderWithin run.levels) call.site template
    explicit).run s
  (∃ failure, render.Refused links template failure ∧ rendered.1 = .error failure) ∨
    ∃ defaults inner, Chain render root (⟨explicit, defaults, call.site.scope.frames⟩ :: links)
      inner ∧
      inner.template = template ∧ rendered.1 = inner.result render s.session.loops.checkpoint ∧
      rendered.2.host = (inner.stop render).2.host

theorem Chain.inProgress (chain : Chain render root links run) :
    InProgress render root links.length run := by
  induction chain with
  | root => exact .root
  | child _ made requested opens below _ ih => exact .child ih made requested opens below

theorem Chain.goesOn (begun : Ready (fun _ _ => True) root) (fresh : root.start.session.depth = 0)
    (chain : Chain render root links run) (made : call ∈ run.calls render)
    (requested : Requests render run.levels call s template explicit) :
    GoesOn render root links run call s template explicit := by
  have anyPage : ∀ template page, render.library.compile template = .ok page → True :=
    fun _ _ _ => trivial
  obtain ⟨ready, counted⟩ := chain.inProgress.ready anyPage begun
  rw [fresh, Nat.zero_add] at counted
  have idle := ready.requested anyPage made requested
  have deep : s.session.depth = links.length := idle.depth.trans counted
  have room : links.length + run.levels = Session.depthLimit := counted ▸ ready.room
  unfold GoesOn
  cases supplied : render.defaults template with
  | error source =>
      exact .inl ⟨_, .defaults supplied, by rw [renderChild_undefaulted supplied]⟩
  | ok defaults =>
      obtain ⟨merged, resolved, -⟩ :=
        View.resolveChild_of_defaults supplied call.site.scope.inheritable explicit
      by_cases shallow : s.session.depth < Session.depthLimit
      · obtain ⟨below, same⟩ : ∃ below, run.levels = below + 1 := ⟨run.levels - 1, by omega⟩
        cases fetched : render.library.fetch s.compiled template with
        | mk result compiled =>
            cases result with
            | error fault =>
                obtain ⟨-, uncompiled⟩ := Library.fetch_eq_error fetched
                refine .inl ⟨_, .uncompiled
                  (Library.failsToCompile_iff.mpr ⟨fault, uncompiled, rfl⟩), ?_⟩
                rw [same]
                exact renderChild_unfetched idle.failure resolved shallow fetched
            | ok page =>
                have opens : render.Opens { call with found := s } template explicit
                    ⟨template, page, context merged, { s.entered with compiled }, below⟩ :=
                  .intro resolved shallow fetched
                obtain ⟨result, host⟩ := renderChild_eq_of_opens opens same
                exact .inr ⟨defaults, _, .child chain made requested opens same supplied,
                  rfl, result, host⟩
      · have full : links.length = Session.depthLimit := by omega
        exact .inl ⟨_, .nested full, by rw [renderChild_nested resolved (Nat.not_lt.mp shallow)]⟩

/-- What a template finds in its variables at the end of a chain of partials, over the layers of the
root. -/
structure Layered (base : List Layer) (links : List Link) (run : PageRun σ) : Prop where
  session : Scope.find? { given := run.given } sessionVariable = some .session
  data : ∀ name, name ≠ sessionVariable → ∀ value,
    Scope.find? { given := run.given } name = some value → ∃ data, value = .ofData data
  found : ∀ name, name ≠ sessionVariable →
    Scope.data? { given := run.given } name = Layer.data? (Link.layers name base links) name

theorem Chain.layered {page : Page} {data : ViewData} {start : RenderState σ}
    (chain : Chain render (.root page data start) links run) {base : List Layer}
    (begun : ∀ name, name ≠ sessionVariable →
      Scope.find? { given := context data } name = Layer.nearest? base name) :
    Layered base links run := by
  have found : ∀ name, name ≠ sessionVariable →
      Scope.data? { given := run.given } name = Layer.data? (Link.layers name base links) name := by
    intro name apart
    refine chain.data?_given apart ?_
    show Scope.data? { given := context data } name = _
    rw [Scope.data?, begun name apart]
    rfl
  obtain ⟨own, given⟩ := chain.given_eq
  refine ⟨?_, fun name apart value has => ?_, found⟩
  · rw [given, Scope.find?_start, find?_context_session]
  · rw [given, find?_context apart] at has
    obtain ⟨held, -, same⟩ := Option.map_eq_some_iff.mp has
    exact ⟨held, same.symm⟩

end Render

namespace Engine

open Render

variable {engine : Engine σ} {template : String} {data : ViewData} {root : PageRun σ}

end Engine

end ThemeTemplates
