import ThemeTemplates.Proofs.Page.Isolation
import ThemeTemplates.Proofs.Page.Tidy
import ThemeTemplates.Proofs.Render.Child

/-!
# What tidy code keeps

While tidy code runs, the open loops and the current item are those it began with wherever no loop
of its own is open. When a fault stops it, loops of its own may still be open above those it began
with, and the current item is the one the innermost of them stands on. These are `Steady` and
`Stranded`; the functions of the directives and the actions of a host keep the first.
-/

namespace ThemeTemplates

structure Watch (σ : Type) where
  /-- Whether failures must not be misuse of the loop stack. -/
  strict : Prop
  /-- Whether the current item is followed. -/
  tracked : Prop
  host : σ → Prop

/-- The current item inside some open loops: the one that the innermost started `@loop` stands on,
and a given one outside all of them. -/
def itemInside : List LoopFrame → Data → Data
  | [], item => item
  | frame :: outer, item =>
    if frame.kind.bindsCurrentItem then
      match frame.current? with
      | some current => (Value.ofData current).toData
      | none => itemInside outer item
    else itemInside outer item

theorem itemInside_append (opened frames : List LoopFrame) (item : Data) :
    itemInside (opened ++ frames) item = itemInside opened (itemInside frames item) := by
  induction opened with
  | nil => rfl
  | cons frame outer ih =>
      simp only [List.cons_append, itemInside]
      rw [ih]

namespace HostAction

variable {σ α : Type}

/-- A host action keeps an invariant of the host, given that no child hands it a failure that is not
calm. -/
def Keeps (strict : Prop) (inv : σ → Prop) : HostAction σ α → Prop
  | answer _ | fail _ => True
  | look resume => ∀ view, (resume view).Keeps strict inv
  | readState resume => ∀ state, inv state → (resume state).Keeps strict inv
  | writeState state resume => inv state ∧ resume.Keeps strict inv
  | renderChild _ _ resume => ∀ result, CalmResult strict result → (resume result).Keeps strict inv

theorem keeps_true (strict : Prop) (action : HostAction σ α) :
    action.Keeps strict fun _ => True := by
  induction action with
  | answer | fail => trivial
  | look _ ih => exact ih
  | readState _ ih => exact fun state _ => ih state
  | writeState _ _ ih => exact ⟨trivial, ih⟩
  | renderChild _ _ _ ih => exact fun result _ => ih result

end HostAction

/-- Whatever a host is asked, it keeps an invariant of its own. -/
structure Host.Keeps {σ : Type} (strict : Prop) (inv : σ → Prop) (host : Host σ) : Prop where
  currentQuery : host.currentQuery.Keeps strict inv
  navMenu : ∀ menu, (host.navMenu menu).Keeps strict inv
  paginate : ∀ config, (host.paginate config).Keeps strict inv
  can : ∀ action subject, (host.can action subject).Keeps strict inv
  canAny : ∀ actions subject, (host.canAny actions subject).Keeps strict inv
  currentUser : host.currentUser.Keeps strict inv
  postType : host.postType.Keeps strict inv
  invoke : ∀ name args, (host.invoke name args).Keeps strict inv
  call : ∀ name args, (host.call name args).Keeps strict inv

theorem Host.keeps_true {σ : Type} (strict : Prop) (host : Host σ) :
    host.Keeps strict fun _ => True := by
  constructor <;> intros <;> exact HostAction.keeps_true strict _

namespace Render

variable {σ : Type} {w : Watch σ} {hidden : String → Prop} {frames : List LoopFrame} {item : Data}

/-- A render whose pages are tidy, whose host keeps what is watched and has no function of a hidden
name, and in which the functions that would disturb what is watched are hidden. -/
structure Watched (w : Watch σ) (hidden : String → Prop) (render : Render σ) : Prop where
  hidesLoops : ∀ function ∈ [PageFunction.loopPush, .loopNext, .loopPop], hidden function.name
  hidesItem : w.tracked →
    ∀ function ∈ [PageFunction.setCurrentItem, .resetCurrentItem], hidden function.name
  functions : ∀ name ∈ render.host.functions, ¬ hidden name
  host : render.host.Keeps w.strict w.host
  pages : ∀ template page, render.library.compile template = .ok page → Tidy hidden page.body
  faults : ∀ template fault, render.library.compile template = .error fault → fault.Calm w.strict

/-- What holds of the state of a watched render apart from its loops and its current item. -/
structure Sound (w : Watch σ) (hidden : String → Prop) (s : RenderState σ) : Prop where
  failure : ∀ failure, s.session.failure = some failure → failure.Calm w.strict
  host : w.host s.host
  compiled : ∀ name page, (name, page) ∈ s.compiled → Tidy hidden page.body

/-- Just these loops are open, and this is the current item. -/
structure Steady (w : Watch σ) (hidden : String → Prop) (frames : List LoopFrame) (item : Data)
    (s : RenderState σ) : Prop where
  sound : Sound w hidden s
  frames : s.session.loops.frames = frames
  item : w.tracked → s.session.currentItem = item

/-- Above these loops further ones may be open, and the current item is that of the innermost. -/
structure Stranded (w : Watch σ) (hidden : String → Prop) (frames : List LoopFrame) (item : Data)
    (s : RenderState σ) : Prop where
  sound : Sound w hidden s
  opened : ∃ opened, s.session.loops.frames = opened ++ frames ∧
    (w.tracked → s.session.currentItem = itemInside opened item)

theorem Steady.stranded {s : RenderState σ} (h : Steady w hidden frames item s) :
    Stranded w hidden frames item s :=
  ⟨h.sound, [], h.frames, h.item⟩

/-- What is stranded above some loops of a run is stranded above the loops that the run began
with. -/
theorem Stranded.beneath {s : RenderState σ} (opened : List LoopFrame)
    (h : Stranded w hidden (opened ++ frames) (itemInside opened item) s) :
    Stranded w hidden frames item s := by
  obtain ⟨sound, above, same, current⟩ := h
  refine ⟨sound, above ++ opened, by rw [same, List.append_assoc], fun followed => ?_⟩
  rw [current followed, itemInside_append]

/-- From every steady state, tidy code run as a template either ends in a steady state or is
stranded. -/
def Renderer.Disciplined (w : Watch σ) (hidden : String → Prop) (renderer : Renderer σ) : Prop :=
  ∀ frames item template given,
    (∀ name value, (name, value) ∈ given → value.Bindable hidden name) →
    (renderer template given).Meets (Steady w hidden frames item)
      (fun _ => Steady w hidden frames item)
      fun fault s => fault.Calm w.strict ∧ Stranded w hidden frames item s

/-- Failing children leave the current item as it was. -/
def RestoresItem (w : Watch σ) (hidden : String → Prop) (render : Render σ)
    (renderer : Renderer σ) : Prop :=
  ∀ site template data (s t : RenderState σ) failure, Sound w hidden s →
    (render.renderChild renderer site template data).run s = (.error failure, t) →
    t.session.currentItem = s.session.currentItem

/-! ### Children -/

theorem Sound.enter {s : RenderState σ} (h : Sound w hidden s) {template : String}
    {mark : Checkpoint} {session : Session}
    (entered : s.session.enter template = .ok (mark, session)) :
    Sound w hidden { s with session } := by
  cases enter_eq_ok entered
  exact ⟨h.failure, h.host, h.compiled⟩

theorem Steady.enter {s : RenderState σ} (h : Steady w hidden frames item s) {template : String}
    {mark : Checkpoint} {session : Session}
    (entered : s.session.enter template = .ok (mark, session)) :
    Steady w hidden frames item { s with session } := by
  refine ⟨h.sound.enter entered, ?_, ?_⟩
  all_goals cases enter_eq_ok entered
  · exact h.frames
  · exact h.item

theorem calm_takeFailure {s : RenderState σ} (h : Sound w hidden s) {fault : Fault}
    (hfault : fault.Calm w.strict) (template : String) :
    ((takeFailure template fault).run s).1.Calm w.strict := by
  show (s.session.failure.getD (Failure.ofFault fault template)).Calm w.strict
  cases kept : s.session.failure with
  | none => exact Failure.calm_ofFault hfault template
  | some failure => exact h.failure failure kept

theorem Stranded.takeFailure {s : RenderState σ} (h : Stranded w hidden frames item s)
    (template : String) (fault : Fault) :
    Stranded w hidden frames item ((takeFailure template fault).run s).2 :=
  ⟨⟨(fun _ found => nomatch found), h.sound.host, h.sound.compiled⟩, h.opened⟩

theorem bindable_context (data : ViewData) :
    ∀ name value, (name, value) ∈ context data → value.Bindable hidden name := by
  intro name value hmem
  rcases Fields.mem_insert hmem with hmem | hmem
  · cases hmem
    exact ⟨trivial, fun _ _ => Value.noConfusion⟩
  · obtain ⟨⟨_, field⟩, _, same⟩ := List.mem_map.mp hmem
    cases same
    exact Value.bindable_ofData name field

theorem resolveChild_calm {defaults : DefaultsProvider} {template : String}
    {inherited explicit : ViewData} {failure : Failure}
    (h : View.resolveChild defaults template inherited explicit = .error failure) :
    failure.Calm w.strict := by
  unfold View.resolveChild DefaultsProvider.layer at h
  cases supplied : defaults template with
  | error source =>
      rw [supplied] at h
      cases h
      exact Failure.calm_collaborator _ _
  | ok layer =>
      rw [supplied] at h
      cases h

theorem childRun_none_calm {render : Render σ} {renderer : Renderer σ} {site : Site}
    {template : String} {data : ViewData} {s : RenderState σ}
    (h : render.childRun renderer site template data s = none) :
    CalmResult w.strict ((render.renderChild renderer site template data).run s).1 := by
  intro failure failed
  unfold childRun at h
  unfold renderChild at failed
  split at h
  · next merged =>
      rw [merged] at failed
      cases failed
      exact resolveChild_calm merged
  · next data merged =>
      rw [merged] at failed
      split at h
      · next refusal entered =>
          simp only [StateT.run_bind, StateT.run_get, pure_bind, entered] at failed
          cases failed
          unfold Session.enter at entered
          split at entered <;> cases entered
          exact Failure.calm_evaluation _ _ _
      · cases h

theorem childRun_disciplined {render : Render σ} {renderer : Renderer σ}
    (hrenderer : renderer.Disciplined w hidden) {site : Site} {template : String} {data : ViewData}
    {s stop : RenderState σ} {result : Except Fault String}
    (hs : Steady w hidden frames item s)
    (ran : render.childRun renderer site template data s = some (result, stop)) :
    match result with
    | .ok _ => Steady w hidden frames item stop
    | .error fault => fault.Calm w.strict ∧ Stranded w hidden frames item stop := by
  unfold childRun at ran
  split at ran
  · cases ran
  · next merged _ =>
      split at ran
      · cases ran
      · next mark session entered =>
          have outcome := hrenderer frames item template _ (bindable_context merged) _
            (hs.enter entered)
          simp only [Option.some.injEq] at ran
          rw [ran] at outcome
          cases result <;> exact outcome

theorem renderChild_steady {render : Render σ} {renderer : Renderer σ}
    (hrenderer : renderer.Disciplined w hidden)
    (hrestores : w.tracked → render.RestoresItem w hidden renderer) (site : Site)
    (template : String) (data : ViewData) {s : RenderState σ}
    (hs : Steady w hidden frames item s) :
    CalmResult w.strict ((render.renderChild renderer site template data).run s).1 ∧
      Steady w hidden frames item ((render.renderChild renderer site template data).run s).2 := by
  cases ran : render.childRun renderer site template data s with
  | none =>
      refine ⟨childRun_none_calm ran, ?_⟩
      obtain ⟨_, unchanged⟩ := renderChild_of_childRun_eq_none ran
      rw [unchanged]
      exact hs
  | some outcome =>
      obtain ⟨result, stop⟩ := outcome
      have ended := childRun_disciplined hrenderer hs ran
      cases result with
      | ok output =>
          have same : stop.session.loops.frames = s.session.loops.frames := by
            rw [ended.frames, hs.frames]
          have left := renderChild_of_output ran
          simp only [afterChild, Session.leave, verify_of_frames_eq same] at left
          rw [left]
          refine ⟨?_, ⟨ended.sound.failure, ended.sound.host, ended.sound.compiled⟩, ended.frames,
            ended.item⟩
          intro failure failed
          cases failed
      | error fault =>
          obtain ⟨calm, stranded⟩ := ended
          have taken := stranded.takeFailure template fault
          have left := renderChild_of_fault ran
          have restored := fun followed => hrestores followed site template data s _ _ hs.sound left
          rw [left]
          refine ⟨?_, ?_, ?_, fun followed => ?_⟩
          · intro failure failed
            cases failed
            exact calm_takeFailure stranded.sound calm template
          · exact ⟨taken.sound.failure, taken.sound.host, taken.sound.compiled⟩
          · obtain ⟨opened, same, _⟩ := taken.opened
            rw [← hs.frames]
            refine frames_unwind_eq_iff.mpr ?_
            rw [hs.frames]
            exact ⟨opened, same.symm⟩
          · exact (restored followed).trans (hs.item followed)

/-! ### Hosts -/

/-- A host leaves the loops and the current item as they are and keeps its own invariant. -/
theorem perform_steady {render : Render σ} {renderer : Renderer σ}
    (hrenderer : renderer.Disciplined w hidden)
    (hrestores : w.tracked → render.RestoresItem w hidden renderer) (site : Site) {α : Type}
    (action : HostAction σ α) (hkeeps : action.Keeps w.strict w.host) {s : RenderState σ}
    (hs : Steady w hidden frames item s) :
    Steady w hidden frames item ((render.perform renderer site action).run s).2 := by
  induction action generalizing s with
  | answer | fail => exact hs
  | look resume ih => exact ih _ (hkeeps _) hs
  | readState resume ih => exact ih _ (hkeeps _ hs.sound.host) hs
  | writeState state resume ih =>
      refine ih hkeeps.2 ⟨⟨hs.sound.failure, hkeeps.1, hs.sound.compiled⟩, hs.frames, hs.item⟩
  | renderChild template data resume ih =>
      have step := renderChild_steady hrenderer hrestores site template data hs
      exact ih _ (hkeeps _ step.1) step.2

end Render

end ThemeTemplates
