import ThemeTemplates.Proofs.Render.Surfacing

/-!
# Child renders in progress

A call renders a partial itself, or the host that it asks does, as often as it likes and whatever
came of it before. Each child that is let in runs a page, whose calls ask for further children:
these are the runs in progress below a root.
-/

namespace ThemeTemplates

namespace Render

open Evaluation

variable {σ α : Type}

/-- One thing that a host does on its way to an answer. -/
inductive HostStep (render : Render σ) (renderer : Renderer σ) (site : Site) :
    HostAction σ α × RenderState σ → HostAction σ α × RenderState σ → Prop
  | look {resume : RenderView → HostAction σ α} {s : RenderState σ} :
    HostStep render renderer site (.look resume, s) (resume (render.look site s), s)
  | readState {resume : σ → HostAction σ α} {s : RenderState σ} :
    HostStep render renderer site (.readState resume, s) (resume s.host, s)
  | writeState {host : σ} {resume : HostAction σ α} {s : RenderState σ} :
    HostStep render renderer site (.writeState host resume, s) (resume, { s with host })
  | renderChild {template : String} {data : ViewData} {resume : Except Failure String →
      HostAction σ α}
    {s t : RenderState σ} {result : Except Failure String}
    (rendered : (render.renderChild renderer site template data).run s = (result, t)) :
    HostStep render renderer site (.renderChild template data resume, s) (resume result, t)

abbrev HostSteps (render : Render σ) (renderer : Renderer σ) (site : Site) :
    HostAction σ α × RenderState σ → HostAction σ α × RenderState σ → Prop :=
  Relation.ReflTransGen (HostStep render renderer site)

/-- A call asks for a child render, in the state that the child is to begin from. -/
inductive Requests (render : Render σ) (levels : Nat) (call : Invocation (RenderState σ)) :
    RenderState σ → String → ViewData → Prop
  /-- The call is one that renders a partial. -/
  | own {template : String} {data : ViewData} (renders : render.RendersPartial call template data) :
    Requests render levels call call.found template data
  /-- The call asks the host something, and the host renders a partial. -/
  | host {α : Type} {asked template : String} {action : HostAction σ α} {yield : α → Value}
    {data : ViewData} {resume : Except Failure String → HostAction σ α} {s : RenderState σ}
    (active : Active call.site)
    (asks : render.undertakes? call.name call.args = some (.ask asked action yield))
    (comes : HostSteps render (render.renderWithin levels) call.site (action, call.found)
      (.renderChild template data resume, s)) : Requests render levels call s template data

/-- The runs below a root, each with the number of child renders that are in progress while it goes
on. -/
inductive InProgress (render : Render σ) (root : PageRun σ) : Nat → PageRun σ → Prop
  | root : InProgress render root 0 root
  | child {n : Nat} {outer inner : PageRun σ} {call : Invocation (RenderState σ)}
      {s : RenderState σ}
    {data : ViewData} (outside : InProgress render root n outer) (made : call ∈ outer.calls render)
    (requested : Requests render outer.levels call s inner.template data)
    (opens : render.Opens { call with found := s } inner.template data inner)
    (below : outer.levels = inner.levels + 1) : InProgress render root (n + 1) inner

variable {kept : String → Page → Prop} {depth levels : Nat} {render : Render σ}
    {renderer : Renderer σ}
  {site : Site}

theorem HostSteps.perform_eq {start rest : HostAction σ α × RenderState σ}
    (comes : HostSteps render renderer site start rest) :
    (render.perform renderer site start.1).run start.2 =
      (render.perform renderer site rest.1).run rest.2 := by
  induction comes with
  | refl => rfl
  | tail _ step ih =>
      rw [ih]
      cases step with
      | look | readState | writeState => rfl
      | renderChild rendered =>
          simp only [perform, StateT.run_bind, rendered]
          rfl

theorem HostStep.idle (settles : renderer.Settles kept)
    {start next : HostAction σ α × RenderState σ} (step : HostStep render renderer site start next)
    (hs : Idle kept depth start.2) :
    Idle kept depth next.2 := by
  cases step with
  | look | readState => exact hs
  | writeState => exact ⟨⟨hs.depth, hs.compiled⟩, hs.failure⟩
  | @renderChild template data _ s _ _ rendered =>
      have left : Idle kept depth ((render.renderChild renderer site template data).run s).2 :=
        renderChild_idle settles site template data hs
      rwa [rendered] at left

theorem HostSteps.idle (settles : renderer.Settles kept)
    {start rest : HostAction σ α × RenderState σ}
    (comes : HostSteps render renderer site start rest) (hs : Idle kept depth start.2) :
    Idle kept depth rest.2 := by
  induction comes with
  | refl => exact hs
  | tail _ step ih => exact step.idle settles ih

theorem Opens.depth_eq {call : Invocation (RenderState σ)} {template : String} {data : ViewData}
    {inner : PageRun σ} (opens : render.Opens call template data inner) :
    inner.start.session.depth = call.found.session.depth + 1 := by
  cases opens
  rfl

section

variable (compiles : ∀ template page, render.library.compile template = .ok page →
    kept template page)
  {root run : PageRun σ} {call : Invocation (RenderState σ)} {s : RenderState σ} {template : String}
  {data : ViewData}

include compiles

theorem Ready.requested (ready : Ready kept run) (made : call ∈ run.calls render)
    (requested : Requests render run.levels call s template data) :
    Idle kept run.start.session.depth s := by
  have found := ready.found compiles made
  cases requested with
  | own => exact found
  | host _ _ comes => exact HostSteps.idle (renderWithin_settles compiles run.levels) comes found

/-- Below a root that is ready every run is, and the session has counted the child renders that are
in progress. -/
theorem InProgress.ready {n : Nat} (begun : Ready kept root)
    (within : InProgress render root n run) :
    Ready kept run ∧ run.start.session.depth = root.start.session.depth + n := by
  induction within with
  | root => exact ⟨begun, rfl⟩
  | child _ made requested opens below ih =>
      obtain ⟨ready, counted⟩ := ih
      have found := ready.requested compiles made requested
      refine ⟨opens.ready compiles found (below ▸ ready.room), ?_⟩
      exact opens.depth_eq.trans (congrArg (· + 1) (found.depth.trans counted))

end

end Render

end ThemeTemplates
