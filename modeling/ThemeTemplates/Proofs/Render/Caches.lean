import ThemeTemplates.Proofs.Page.Companion
import ThemeTemplates.Proofs.Render.Child

/-!
# Renders that keep different pages

Two renders of one site that differ in their libraries and in the pages they keep. If they fetch the
same pages, they do the same throughout: no function looks at what is kept.
-/

namespace ThemeTemplates

open Evaluation Evaluation.Companion

variable {σ α : Type}

/-- States that differ in the pages compiled so far, and there only as `caches` says. -/
structure RenderState.Apart (caches : Fields Page → Fields Page → Prop) (s r : RenderState σ) :
    Prop where
  session : s.session = r.session
  host : s.host = r.host
  compiled : caches s.compiled r.compiled

namespace Render

open RenderState

variable {caches : Fields Page → Fields Page → Prop}

/-- Two runs whose states differ only in the pages compiled so far, also where a fault stops
them. -/
def apart (caches : Fields Page → Fields Page → Prop) :
    Companion (RenderState σ) (RenderState σ) where
  related := Apart caches
  stopped := fun _ => Apart caches
  complaint := fun h _ => h
  located := fun h _ => h
  wrapping := fun h _ => h
  missing := fun h _ => h

/-- Two steps that cannot fail yield the same and leave states that differ only in what is kept. -/
def Parallel (caches : Fields Page → Fields Page → Prop) (first second : StateM (RenderState σ) α) :
    Prop :=
  ∀ s r, Apart caches s r →
    (first.run s).1 = (second.run r).1 ∧ Apart caches (first.run s).2 (second.run r).2

theorem Parallel.agree {first second : StateM (RenderState σ) α}
    (h : Parallel caches first second) :
    (apart caches).Agree (liftM first : Evaluation (RenderState σ) α) (liftM second) := by
  intro s r related
  obtain ⟨same, left⟩ := h s r related
  change (apart caches).Ends _ (.ok (first.run s).1, (first.run s).2)
    (.ok (second.run r).1, (second.run r).2)
  rw [same]
  exact .value left

/-! ### Functions without a library -/

theorem failWith_agree (failure : Failure) :
    (apart caches).Agree (failWith failure : Evaluation (RenderState σ) α) (failWith failure) :=
  fun _ _ h => .fault ⟨congrArg (Session.record · failure) h.session, h.host, h.compiled⟩

theorem read_agree {next next' : RenderState σ → Evaluation (RenderState σ) α}
    (h : ∀ s r, s.session = r.session → (apart caches).Agree (next s) (next' r)) :
    (apart caches).Agree (get >>= next) (get >>= next') := by
  intro s r related
  rw [run_get_bind, run_get_bind]
  exact h s r related.session s r related

theorem change_agree (change : Session → Session) :
    (apart caches).Agree
      (modify fun s => { s with session := change s.session } : Evaluation (RenderState σ) PUnit)
      (modify fun s => { s with session := change s.session }) :=
  fun _ _ h => .value ⟨congrArg change h.session, h.host, h.compiled⟩

theorem textArgument_agree (value : Value) :
    (apart caches).Agree (textArgument value : Evaluation (RenderState σ) String)
      (textArgument value) := by
  unfold textArgument
  split
  · exact Agree.pure _
  · exact Agree.complain _

theorem wrongCount_agree (needed : Nat) (args : List Value) :
    (apart caches).Agree (wrongCount needed args : Evaluation (RenderState σ) α)
      (wrongCount needed args) :=
  Agree.complain _

theorem checkActive_agree (site : Site) :
    (apart caches).Agree (checkActive site : Evaluation (RenderState σ) Unit)
      (checkActive site) := by
  unfold checkActive
  split
  · exact Agree.pure _
  · exact fun _ _ h => .fault h

theorem loopKind_agree (name : String) :
    (apart caches).Agree (loopKind name : Evaluation (RenderState σ) LoopKind) (loopKind name) := by
  unfold loopKind
  split
  · exact Agree.pure _
  · exact Agree.complain _

theorem loopValue_agree :
    (apart caches).Agree (loopValue : Evaluation (RenderState σ) Value) loopValue := by
  refine read_agree fun s r same => ?_
  rw [same]
  split <;> exact Agree.pure _

theorem loopPush_agree (site : Site) (source : Value) (kind : String) :
    (apart caches).Agree (loopPush site source kind : Evaluation (RenderState σ) Value)
      (loopPush site source kind) := by
  refine Agree.bind (checkActive_agree site) fun _ => Agree.bind (loopKind_agree kind)
    fun kind => ?_
  split
  · next items _ =>
      exact Agree.bind (change_agree fun session => session.pushLoop kind items) fun _ =>
        Agree.pure _
  · exact Agree.complain _

theorem changeLoops_agree (change : Session → Except LoopStackError Session) :
    (apart caches).Agree (changeLoops change : Evaluation (RenderState σ) Value)
      (changeLoops change) := by
  refine read_agree fun s r same => ?_
  rw [same]
  split
  · next session _ => exact Agree.bind (change_agree fun _ => session) fun _ => loopValue_agree
  · exact failWith_agree _

theorem loopNext_agree (site : Site) (item : Value) (kind : String) :
    (apart caches).Agree (loopNext site item kind : Evaluation (RenderState σ) Value)
      (loopNext site item kind) :=
  Agree.bind (checkActive_agree site) fun _ => Agree.bind (loopKind_agree kind) fun _ =>
    changeLoops_agree _

theorem loopPop_agree (site : Site) (kind : String) :
    (apart caches).Agree (loopPop site kind : Evaluation (RenderState σ) Value)
      (loopPop site kind) :=
  Agree.bind (checkActive_agree site) fun _ => Agree.bind (loopKind_agree kind) fun _ =>
    changeLoops_agree _

theorem setItem_agree (site : Site) (item : Data) :
    (apart caches).Agree (setItem site fun _ : RenderState σ => item)
      (setItem site fun _ => item) :=
  Agree.bind (checkActive_agree site) fun _ =>
    Agree.bind (change_agree fun session => { session with currentItem := item }) fun _ =>
      Agree.pure _

/-! ### Functions with a library -/

section

variable (render : Render σ) (library : Library) {renderer renderer' : Renderer σ}
  (renders : ∀ template given, (apart caches).Agree (renderer template given)
    (renderer' template given))
  (site : Site)

theorem afterChild_apart {s r stop stop' : RenderState σ} (h : Apart caches s r)
    (ended : Apart caches stop stop') (result : Except Failure String) :
    (afterChild s stop result).1 = (afterChild r stop' result).1 ∧
      Apart caches (afterChild s stop result).2 (afterChild r stop' result).2 := by
  unfold afterChild
  rw [h.session, ended.session]
  exact ⟨rfl, rfl, ended.host, ended.compiled⟩

include renders

theorem renderChild_parallel (template : String) (data : ViewData) :
    Parallel caches (render.renderChild renderer site template data)
      ({ render with library }.renderChild renderer' site template data) := by
  intro s r h
  cases supplied : View.resolveChild render.defaults template site.scope.inheritable data with
  | error failure =>
      simp only [renderChild, supplied]
      exact ⟨rfl, h⟩
  | ok merged =>
      cases entered : s.session.enter template with
      | error failure =>
          have entered' := h.session ▸ entered
          simp only [renderChild, supplied, StateT.run_bind, StateT.run_get, pure_bind,
            entered, entered']
          exact ⟨rfl, h⟩
      | ok reached =>
          obtain ⟨mark, session⟩ := reached
          have entered' := h.session ▸ entered
          have ended := renders template (context merged) { s with session } { r with session }
            ⟨rfl, h.host, h.compiled⟩
          have ran : render.childRun renderer site template data s =
              some ((renderer template (context merged)).run.run { s with session }) := by
            simp only [childRun, supplied, entered]
          have ran' : ({ render with library } : Render σ).childRun renderer' site template data r =
              some ((renderer' template (context merged)).run.run { r with session }) := by
            simp only [childRun, supplied, entered']
          generalize (renderer template (context merged)).run.run { s with session } = one,
            (renderer' template (context merged)).run.run { r with session } = two at ended ran ran'
          cases ended with
          | value stops =>
              rw [renderChild_of_output ran, renderChild_of_output ran']
              exact afterChild_apart h stops _
          | @fault fault stop stop' stops =>
              have taken : ((takeFailure template fault).run stop).1 =
                    ((takeFailure template fault).run stop').1 ∧
                  Apart caches ((takeFailure template fault).run stop).2
                    ((takeFailure template fault).run stop').2 := by
                refine ⟨congrArg (fun session : Session =>
                  session.failure.getD (Failure.ofFault fault template)) stops.session, ?_⟩
                exact ⟨congrArg (fun session : Session => { session with failure := none })
                  stops.session, stops.host, stops.compiled⟩
              rw [renderChild_of_fault ran, renderChild_of_fault ran', ← taken.1]
              exact afterChild_apart h taken.2 _

theorem perform_parallel (action : HostAction σ α) :
    Parallel caches (render.perform renderer site action)
      ({ render with library }.perform renderer' site action) := by
  induction action with
  | answer | fail => exact fun _ _ h => ⟨rfl, h⟩
  | look resume ih =>
      intro s r h
      have same : ({ render with library } : Render σ).look site r = render.look site s := by
        unfold look
        rw [h.session]
      have onwards := ih (render.look site s) s r h
      unfold perform
      simp only [StateT.run_bind, StateT.run_get, pure_bind, same]
      exact onwards
  | readState resume ih =>
      intro s r h
      have onwards := ih s.host s r h
      unfold perform
      simp only [StateT.run_bind, StateT.run_get, pure_bind, ← h.host]
      exact onwards
  | writeState host resume ih =>
      exact fun s r h => ih { s with host } { r with host } ⟨h.session, rfl, h.compiled⟩
  | renderChild template data resume ih =>
      intro s r h
      obtain ⟨same, left⟩ : _ ∧ Apart caches _ _ :=
        renderChild_parallel render library renders site template data s r h
      unfold perform
      simp only [StateT.run_bind]
      generalize (render.renderChild renderer site template data).run s = one,
        ({ render with library }.renderChild renderer' site template data).run r =
          two at same left ⊢
      obtain ⟨result, t⟩ := one
      obtain ⟨result', t'⟩ := two
      cases same
      exact ih result t t' left

theorem ask_agree (name : String) (action : HostAction σ α) :
    (apart caches).Agree (render.ask renderer site name action)
      ({ render with library }.ask renderer' site name action) := by
  refine Agree.bind (perform_parallel render library renders site action).agree fun result => ?_
  cases result with
  | ok value => exact Agree.pure value
  | error error => exact failWith_agree _

theorem ask_yields_agree (name : String) (action : HostAction σ α) (yield : α → Value) :
    (apart caches).Agree
      (do checkActive site; return yield (← render.ask renderer site name action))
      (do
        checkActive site
        return yield (← { render with library }.ask renderer' site name action)) :=
  Agree.bind (checkActive_agree site) fun _ =>
    Agree.bind (ask_agree render library renders site name action) fun _ => Agree.pure _

theorem childMarkup_agree (template : String) (data : Option Value) :
    (apart caches).Agree (render.childMarkup renderer site template data)
      ({ render with library }.childMarkup renderer' site template data) := by
  refine Agree.bind (checkActive_agree site) fun _ => ?_
  split
  · exact Agree.complain _
  · next fields _ =>
      refine Agree.bind (renderChild_parallel render library renders site template fields).agree
        fun result => ?_
      cases result with
      | ok output => exact Agree.pure _
      | error failure => exact failWith_agree failure

theorem callFunction_agree (function : PageFunction) (args : List Value) :
    (apart caches).Agree (render.callFunction renderer site function args)
      ({ render with library }.callFunction renderer' site function args) := by
  unfold callFunction
  split
  case h_1 source kind =>
    exact Agree.bind (textArgument_agree kind) fun _ => loopPush_agree site source _
  case h_2 item kind =>
    exact Agree.bind (textArgument_agree kind) fun _ => loopNext_agree site item _
  case h_3 kind => exact Agree.bind (textArgument_agree kind) fun _ => loopPop_agree site _
  case h_4 | h_5 | h_6 | h_7 | h_10 | h_16 | h_17 | h_18 =>
    exact ask_yields_agree render library renders site _ _ _
  case h_8 name =>
    exact Agree.bind (textArgument_agree name) fun _ =>
      childMarkup_agree render library renders site _ _
  case h_9 name data =>
    exact Agree.bind (textArgument_agree name) fun _ =>
      childMarkup_agree render library renders site _ _
  case h_11 =>
    refine Agree.bind (checkActive_agree site) fun _ => read_agree fun s r same => ?_
    rw [same]
    exact Agree.pure _
  case h_12 | h_13 => exact setItem_agree site _
  case h_14 action | h_15 action _ =>
    exact Agree.bind (textArgument_agree action) fun _ =>
      ask_yields_agree render library renders site _ _ _
  case h_19 name args =>
    exact Agree.bind (textArgument_agree name) fun _ =>
      ask_yields_agree render library renders site _ _ _
  case h_20 => exact wrongCount_agree _ _

theorem call_agree (name : String) (args : List Value) :
    (apart caches).Agree ((render.surroundings renderer).call site name args)
      (({ render with library }.surroundings renderer').call site name args) := by
  simp only [surroundings]
  split
  · exact ask_yields_agree render library renders site _ _ _
  · split
    · exact callFunction_agree render library renders site _ args
    · exact Agree.complain _

end

end Render

end ThemeTemplates
