import ThemeTemplates.Directive.Builtin
import ThemeTemplates.Render.Function
import ThemeTemplates.Proofs.Page.Contract

/-!
# What a failing child leaves behind

A child render ends in one of three ways: it is not started, it runs to its end, or a fault stops
it. Only in the last case are open loops dropped, and dropping reaches no further than the depth at
which the child began.
-/

namespace ThemeTemplates.Render

variable {σ : Type}

/-- How a child ran, from a state of its caller on: what it printed or the fault that stopped it,
and the state it left. None if it was not started. -/
def childRun (render : Render σ) (renderer : Renderer σ) (site : Site) (template : String)
    (data : ViewData) (s : RenderState σ) : Option (Except Fault String × RenderState σ) :=
  match View.resolveChild render.defaults template site.scope.inheritable data with
  | .error _ => none
  | .ok merged =>
    match s.session.enter template with
    | .error _ => none
    | .ok (_, session) => some ((renderer template (context merged)).run.run { s with session })

def afterChild (s stop : RenderState σ) (result : Except Failure String) :
    Except Failure String × RenderState σ :=
  let (result, session) := stop.session.leave s.session.loops.checkpoint result
  (result, { stop with session })

theorem enter_eq_ok {session : Session} {template : String} {entered : Checkpoint × Session}
    (h : session.enter template = .ok entered) :
    entered = (session.loops.checkpoint, { session with depth := session.depth + 1 }) := by
  unfold Session.enter at h
  split at h
  · cases h
    rfl
  · cases h

theorem renderChild_of_childRun_eq_none {render : Render σ} {renderer : Renderer σ} {site : Site}
    {template : String} {data : ViewData} {s : RenderState σ}
    (h : render.childRun renderer site template data s = none) :
    ∃ failure, (render.renderChild renderer site template data).run s = (.error failure, s) := by
  unfold childRun at h
  unfold renderChild
  cases merged : View.resolveChild render.defaults template site.scope.inheritable data with
  | error failure => exact ⟨failure, rfl⟩
  | ok data =>
      cases entered : s.session.enter template with
      | error failure =>
          refine ⟨failure, ?_⟩
          simp only [StateT.run_bind, StateT.run_get, pure_bind, entered]
          rfl
      | ok mark =>
          simp only [merged, entered] at h
          cases h

theorem renderChild_of_childRun_eq_some {render : Render σ} {renderer : Renderer σ} {site : Site}
    {template : String} {data : ViewData} {s stop : RenderState σ} {result : Except Fault String}
    (h : render.childRun renderer site template data s = some (result, stop)) :
    (render.renderChild renderer site template data).run s =
      match result with
      | .ok output => afterChild s stop (.ok output)
      | .error fault =>
        afterChild s ((takeFailure template fault).run stop).2
          (.error ((takeFailure template fault).run stop).1) := by
  unfold childRun at h
  unfold renderChild
  cases merged : View.resolveChild render.defaults template site.scope.inheritable data with
  | error failure =>
      simp only [merged] at h
      cases h
  | ok data =>
      cases entered : s.session.enter template with
      | error failure =>
          simp only [merged, entered] at h
          cases h
      | ok reached =>
          have same := enter_eq_ok entered
          subst same
          simp only [merged, entered, Option.some.injEq] at h
          simp only [StateT.run_bind, StateT.run_get, pure_bind, entered, StateT.run_set, h]
          cases result <;> rfl

theorem renderChild_of_output {render : Render σ} {renderer : Renderer σ} {site : Site}
    {template : String} {data : ViewData} {s stop : RenderState σ} {output : String}
    (h : render.childRun renderer site template data s = some (.ok output, stop)) :
    (render.renderChild renderer site template data).run s = afterChild s stop (.ok output) :=
  renderChild_of_childRun_eq_some h

theorem renderChild_of_fault {render : Render σ} {renderer : Renderer σ} {site : Site}
    {template : String} {data : ViewData} {s stop : RenderState σ} {fault : Fault}
    (h : render.childRun renderer site template data s = some (.error fault, stop)) :
    (render.renderChild renderer site template data).run s =
      afterChild s ((takeFailure template fault).run stop).2
        (.error ((takeFailure template fault).run stop).1) :=
  renderChild_of_childRun_eq_some h

theorem frames_unwind_eq_iff {before after : LoopStack} :
    (after.unwind before.checkpoint).frames = before.frames ↔ before.frames <:+ after.frames := by
  unfold LoopStack.unwind LoopStack.checkpoint LoopStack.depth
  constructor
  · intro same
    rw [← same]
    exact List.drop_suffix _ _
  · rintro ⟨opened, same⟩
    rw [← same, List.length_append, Nat.add_sub_cancel]
    exact List.drop_left

theorem verify_of_frames_eq {before after : LoopStack} (h : after.frames = before.frames) :
    after.verify before.checkpoint = .ok () := by
  unfold LoopStack.verify LoopStack.checkpoint LoopStack.depth LoopStack.top?
  rw [h, if_pos rfl]

/-- A failing child leaves the loops of its caller as they were exactly if it was not started, or a
fault stopped it while these loops were open as they had been, beneath any loops of its own. -/
theorem frames_after_failed_child_iff {render : Render σ} {renderer : Renderer σ} {site : Site}
    {template : String} {data : ViewData} {s t : RenderState σ} {failure : Failure}
    (failed : (render.renderChild renderer site template data).run s = (.error failure, t)) :
    t.session.loops.frames = s.session.loops.frames ↔
      ∀ result stop, render.childRun renderer site template data s = some (result, stop) →
        (∃ fault, result = .error fault) ∧
        s.session.loops.frames <:+ stop.session.loops.frames := by
  cases ran : render.childRun renderer site template data s with
  | none =>
      obtain ⟨_, unchanged⟩ := renderChild_of_childRun_eq_none ran
      rw [unchanged] at failed
      cases failed
      simp
  | some outcome =>
      obtain ⟨result, stop⟩ := outcome
      rw [renderChild_of_childRun_eq_some ran] at failed
      have kept : t.session.loops.frames = s.session.loops.frames ↔
          (∃ fault, result = .error fault) ∧
            s.session.loops.frames <:+ stop.session.loops.frames := by
        cases result with
        | ok output =>
            -- the child printed to its end, so what failed is the check of the loops
            have differs : stop.session.loops.frames ≠ s.session.loops.frames := by
              intro same
              simp only [afterChild, Session.leave, verify_of_frames_eq same] at failed
              cases failed
            simp only [afterChild, Session.leave] at failed
            split at failed <;> cases failed
            simpa using differs
        | error fault =>
            cases failed
            exact frames_unwind_eq_iff.trans (and_iff_right ⟨fault, rfl⟩).symm
      constructor
      · rintro same _ _ ⟨⟩
        exact kept.mp same
      · intro condition
        exact kept.mpr (condition result stop rfl)

def ofTemplates (templates : Fields String) : Render Unit where
  library := { loader := Loader.ofTemplates templates, directives := Registry.builtin }
  host := Host.none
  defaults := DefaultsProvider.none
  view := none
  baseItem := .null

def oneLoopOpen : RenderState Unit where
  session := { loops := LoopStack.empty.push .loop [.null, .null] .null, currentItem := .null }
  host := ()
  compiled := []

theorem frames_after_missing_child : ∃ failure t,
    ((ofTemplates []).renderChild ((ofTemplates []).renderWithin 1) ⟨"page", { given := [] }⟩ "gone"
      []).run oneLoopOpen = (.error failure, t) ∧
    (t.session.loops.frames = oneLoopOpen.session.loops.frames ↔
      ∀ result stop,
        (ofTemplates []).childRun ((ofTemplates []).renderWithin 1)
          ⟨"page", { given := [] }⟩ "gone" []
          oneLoopOpen = some (result, stop) →
        (∃ fault, result = .error fault) ∧
          oneLoopOpen.session.loops.frames <:+ stop.session.loops.frames) :=
  ⟨_, _, rfl, frames_after_failed_child_iff rfl⟩

end ThemeTemplates.Render
