import ThemeTemplates.Proofs.Data.RoundTrip
import ThemeTemplates.Proofs.Render.Steady

/-!
# Calls of functions from tidy code

Every function that is not hidden leaves a steady state as it is. The three functions of loops take
a steady state to a steady state with one frame more, moved on, or less.
-/

namespace ThemeTemplates.Render

open Evaluation

variable {σ : Type} {w : Watch σ} {hidden : String → Prop} {frames : List LoopFrame} {item : Data}
  {render : Render σ} {renderer : Renderer σ} {site : Site}

theorem Steady.record {s : RenderState σ} (h : Steady w hidden frames item s) {failure : Failure}
    (calm : failure.Calm w.strict) :
    Steady w hidden frames item { s with session := s.session.record failure } := by
  refine ⟨⟨fun kept found => ?_, h.sound.host, h.sound.compiled⟩, h.frames, h.item⟩
  rcases Option.or_eq_some_iff.mp found with found | ⟨_, found⟩
  · exact h.sound.failure kept found
  · cases found
    exact calm

theorem failWith_preserves {α : Type} {after : α → Prop} {failure : Failure}
    (calm : failure.Calm w.strict) :
    Preserves w.strict (Steady w hidden frames item) (failWith failure) after :=
  fun _ hs => ⟨Fault.calm_ofComplaint _, hs.record calm⟩

theorem checkActive_preserves :
    Preserves w.strict (Steady w hidden frames item) (checkActive site) fun _ => True := by
  unfold checkActive
  split
  · exact Preserves.pure trivial
  · exact fun s hs => ⟨Fault.calm_carrying (fun _ _ => Failure.noConfusion) none, hs⟩

theorem textArgument_preserves (value : Value) :
    Preserves w.strict (Steady w hidden frames item) (textArgument value) fun _ => True := by
  unfold textArgument
  split
  · exact Preserves.pure trivial
  · exact Preserves.complain _

theorem wrongCount_preserves {α : Type} {after : α → Prop} (needed : Nat) (args : List Value) :
    Preserves w.strict (Steady w hidden frames item) (wrongCount needed args) after :=
  Preserves.complain _

section

variable (hrenderer : renderer.Disciplined w hidden)
  (hrestores : w.tracked → render.RestoresItem w hidden renderer)

include hrenderer hrestores

theorem ask_preserves {α : Type} (name : String) {action : HostAction σ α}
    (hkeeps : action.Keeps w.strict w.host) :
    Preserves w.strict (Steady w hidden frames item) (render.ask renderer site name action)
      fun _ => True := by
  unfold ask
  refine Meets.bind (fun _ => Steady w hidden frames item) ?_ fun result => ?_
  · exact Meets.lift fun s hs => perform_steady hrenderer hrestores site action hkeeps hs
  · cases result with
    | ok value => exact Preserves.pure trivial
    | error error => exact failWith_preserves (Failure.calm_collaborator _ _)

/-- A question to the host that is answered with data or with a text or truth value. -/
theorem ask_yields {α : Type} (name : String) {action : HostAction σ α}
    (hkeeps : action.Keeps w.strict w.host) {yield : α → Value}
    (avoids : ∀ answer, (yield answer).Avoids hidden) :
    Preserves w.strict (Steady w hidden frames item)
      (do return yield (← render.ask renderer site name action)) (Value.Avoids hidden) :=
  Preserves.bind (ask_preserves hrenderer hrestores name hkeeps) fun answer _ =>
    Preserves.pure (avoids answer)

theorem childMarkup_preserves (template : String) (data : Option Value) :
    Preserves w.strict (Steady w hidden frames item)
      (render.childMarkup renderer site template data) (Value.Avoids hidden) := by
  unfold childMarkup
  refine Preserves.bind checkActive_preserves fun _ _ => ?_
  split
  · exact Preserves.complain _
  · next fields _ =>
      refine Meets.bind
        (fun result s => CalmResult w.strict result ∧ Steady w hidden frames item s)
        ?_ fun result => ?_
      · exact Meets.lift fun s hs => renderChild_steady hrenderer hrestores site template fields hs
      · rintro s ⟨calm, hs⟩
        cases result with
        | ok output => exact ⟨trivial, hs⟩
        | error failure =>
            have stops : Preserves w.strict (Steady w hidden frames item) (failWith failure)
                (Value.Avoids hidden) :=
              failWith_preserves (calm failure rfl)
            exact stops s hs

theorem callHost_preserves (hw : Watched w hidden render) (name : String) (args : List Value) :
    Preserves w.strict (Steady w hidden frames item)
      (render.callHost renderer site name args) (Value.Avoids hidden) := by
  unfold callHost
  refine Preserves.bind checkActive_preserves fun _ _ => ?_
  exact ask_yields hrenderer hrestores name (hw.host.call name _) Value.avoids_ofData

/-- Functions that neither work on the loops nor, if it is followed, set the current item. -/
def Harmless (w : Watch σ) (function : PageFunction) : Prop :=
  function ∉ [PageFunction.loopPush, .loopNext, .loopPop] ∧
    (w.tracked → function ∉ [PageFunction.setCurrentItem, .resetCurrentItem])

omit hrenderer hrestores in
theorem setItem_preserves (followed : ¬ w.tracked) (change : RenderState σ → Data) :
    Preserves w.strict (Steady w hidden frames item) (setItem site change)
      (Value.Avoids hidden) := by
  unfold setItem
  refine Preserves.bind checkActive_preserves fun _ _ => ?_
  refine Meets.bind (fun _ => Steady w hidden frames item) ?_ fun _ => ?_
  · refine Meets.change fun s hs => ?_
    exact ⟨⟨hs.sound.failure, hs.sound.host, hs.sound.compiled⟩, hs.frames,
      fun asked => absurd asked followed⟩
  · exact Preserves.pure trivial

theorem callFunction_preserves (hw : Watched w hidden render) {function : PageFunction}
    (harmless : Harmless w function) (args : List Value) :
    Preserves w.strict (Steady w hidden frames item)
      (render.callFunction renderer site function args) (Value.Avoids hidden) := by
  obtain ⟨noLoop, noItem⟩ := harmless
  unfold callFunction
  split
  case h_1 | h_2 | h_3 => simp at noLoop
  case h_4 =>
    refine Preserves.bind checkActive_preserves fun _ _ => ?_
    exact ask_yields hrenderer hrestores _ hw.host.currentQuery Value.avoids_ofData
  case h_5 =>
    refine Preserves.bind checkActive_preserves fun _ _ => ?_
    exact ask_yields hrenderer hrestores _ (hw.host.navMenu _) Value.avoids_ofData
  case h_6 | h_7 =>
    unfold callFunction.paginate
    refine Preserves.bind checkActive_preserves fun _ _ => ?_
    exact ask_yields hrenderer hrestores _ (hw.host.paginate _) fun _ => trivial
  case h_8 | h_9 =>
    refine Preserves.bind (textArgument_preserves _) fun _ _ => ?_
    exact childMarkup_preserves hrenderer hrestores _ _
  case h_10 =>
    refine Preserves.bind checkActive_preserves fun _ _ => ?_
    exact ask_yields hrenderer hrestores _ hw.host.postType fun _ => trivial
  case h_11 =>
    refine Preserves.bind checkActive_preserves fun _ _ => ?_
    refine Meets.bind (fun _ => Steady w hidden frames item) (Meets.get fun _ hs => hs) ?_
    exact fun state => Preserves.pure (Value.avoids_ofData _)
  case h_12 | h_13 =>
    exact setItem_preserves (fun followed => by simp at noItem; exact noItem followed) _
  case h_14 | h_15 =>
    refine Preserves.bind (textArgument_preserves _) fun _ _ => ?_
    unfold callFunction.can
    refine Preserves.bind checkActive_preserves fun _ _ => ?_
    exact ask_yields hrenderer hrestores _ (hw.host.can _ _) fun _ => trivial
  case h_16 | h_17 =>
    unfold callFunction.canAny
    refine Preserves.bind checkActive_preserves fun _ _ => ?_
    exact ask_yields hrenderer hrestores _ (hw.host.canAny _ _) fun _ => trivial
  case h_18 =>
    refine Preserves.bind checkActive_preserves fun _ _ => ?_
    exact ask_yields hrenderer hrestores _ hw.host.currentUser fun _ => trivial
  case h_19 =>
    refine Preserves.bind (textArgument_preserves _) fun _ _ => ?_
    refine Preserves.bind checkActive_preserves fun _ _ => ?_
    exact ask_yields hrenderer hrestores _ (hw.host.invoke _ _) fun _ => trivial
  case h_20 => exact wrongCount_preserves _ _

theorem calls_preserve (hw : Watched w hidden render) :
    CallsPreserve hidden w.strict (Steady w hidden frames item) (render.surroundings renderer)
      site := by
  intro name args visible _
  simp only [surroundings]
  split
  · exact callHost_preserves hrenderer hrestores hw name args
  · split
    · next function named =>
        have same : function.name = name := by simpa using List.find?_some named
        refine callFunction_preserves hrenderer hrestores hw
          ⟨fun loops => ?_, fun followed sets => ?_⟩ args
        · exact visible (same ▸ hw.hidesLoops function loops)
        · exact visible (same ▸ hw.hidesItem followed function sets)
    · exact Preserves.complain _

theorem eval_steady (hw : Watched w hidden render) (hsite : site.scope.Avoids hidden)
    {e : Expression} (he : e.Avoids hidden) :
    Preserves w.strict (Steady w hidden frames item)
      (eval (render.surroundings renderer) site e) (Value.Avoids hidden) :=
  eval_preserves hsite (calls_preserve hrenderer hrestores hw) he

end

/-! ### Loops -/

/-- A frame after some steps. -/
def moved (frame : LoopFrame) : Nat → LoopFrame
  | 0 => { frame with position := none }
  | steps + 1 => { frame with position := some steps }

theorem iteration_moved (frame : LoopFrame) (steps : Nat) :
    (moved frame steps).iteration = steps := by
  cases steps <;> rfl

theorem kind_moved (frame : LoopFrame) (steps : Nat) : (moved frame steps).kind = frame.kind := by
  cases steps <;> rfl

theorem items_moved (frame : LoopFrame) (steps : Nat) :
    (moved frame steps).items = frame.items := by
  cases steps <;> rfl

theorem restore_moved (frame : LoopFrame) (steps : Nat) :
    (moved frame steps).restore = frame.restore := by
  cases steps <;> rfl

theorem moved_moved (frame : LoopFrame) (steps : Nat) :
    { moved frame steps with position := some (moved frame steps).iteration } =
      moved frame (steps + 1) := by
  cases steps <;> rfl

theorem isFunction_name (render : Render σ) (renderer : Renderer σ) (function : PageFunction) :
    (render.surroundings renderer).isFunction function.name = true := by
  simp [surroundings, PageFunction.ofName?_name]

theorem call_hidden (hw : Watched w hidden render) {function : PageFunction}
    (isHidden : hidden function.name) (args : List Value) :
    (render.surroundings renderer).call site function.name args =
      render.callFunction renderer site function args := by
  have unknown : render.host.functions.contains function.name = false := by
    simpa using fun known => hw.functions function.name known isHidden
  simp only [surroundings, unknown, PageFunction.ofName?_name, Bool.false_eq_true, if_false]

theorem ownCalls_contains_name (function : PageFunction) :
    ownCalls.contains function.name = false := by
  cases function <;> decide +kernel

/-- A call of a hidden function by its own name reaches that function or fails. -/
theorem eval_hiddenCall (hw : Watched w hidden render) (hsite : site.scope.Avoids hidden)
    {function : PageFunction} (isHidden : hidden function.name) {args : List Expression}
    {P : List Value → Prop} {after : Value → RenderState σ → Prop} {line : Nat}
    (hargs : Preserves w.strict (Steady w hidden frames item)
      (evalAll (render.surroundings renderer) site args) P)
    (hcall : ∀ values, P values →
      (render.callFunction renderer site function values).Meets (Steady w hidden frames item) after
        fun fault s => fault.Calm w.strict ∧ Steady w hidden frames item s) :
    (eval (render.surroundings renderer) site (.call line function.name args)).Meets
      (Steady w hidden frames item) after
      fun fault s => fault.Calm w.strict ∧ Steady w hidden frames item s := by
  refine Meets.bind _ hargs fun values => Meets.locate ?_
  have complains : ∀ complaint : Complaint,
      Meets (complain complaint : Evaluation (RenderState σ) Value)
        (fun s => P values ∧ Steady w hidden frames item s) after
        fun fault s => (fault.located ⟨site.template, line⟩).Calm w.strict ∧
          Steady w hidden frames item s :=
    fun complaint => Meets.complain fun _ hs => ⟨(Fault.calm_ofComplaint _).located _, hs.2⟩
  simp only [ownCalls_contains_name]
  cases shadowed : site.scope.find? function.name with
  | some value =>
      have noFunction := (hsite.find? shadowed).notFunction isHidden
      simp only [resolve?, shadowed]
      cases value with
      | function name => exact absurd rfl (noFunction name)
      | _ => exact complains _
  | none =>
      simp only [resolve?, shadowed, isFunction_name, if_true, applyValue,
        call_hidden hw isHidden]
      rintro s ⟨hvalues, hs⟩
      exact Meets.weaken (hcall values hvalues) (fun _ _ h => h)
        (fun _ _ h => ⟨h.1.located _, h.2⟩) s hs

theorem loopKind_name {after : LoopKind → RenderState σ → Prop} (kind : LoopKind)
    {before : RenderState σ → Prop} {stopped : Fault → RenderState σ → Prop}
    (h : ∀ s, before s → after kind s) :
    Meets (loopKind kind.name) before after stopped := by
  unfold loopKind
  rw [LoopKind.ofName?_name]
  exact Meets.pure h

/-- Opening a loop puts a frame that has not started on the loops, over the items it yields. -/
theorem loopPush_opens (kind : LoopKind) (source : Value) :
    (loopPush site source kind.name).Meets (Steady w hidden frames item)
      (fun value s => ∃ frame : LoopFrame, value = .ofData (.list frame.items) ∧
        (∀ item ∈ frame.items, item.Canonical) ∧
        frame.kind = kind ∧ (w.tracked → frame.restore = item) ∧
        Steady w hidden (moved frame 0 :: frames) item s)
      fun fault s => fault.Calm w.strict ∧ Steady w hidden frames item s := by
  unfold loopPush
  refine Meets.bind _ checkActive_preserves fun _ => ?_
  refine Meets.bind (fun found s => found = kind ∧ Steady w hidden frames item s)
    (loopKind_name kind fun s hs => ⟨rfl, hs.2⟩) fun found => ?_
  rintro s ⟨rfl, hs⟩
  cases visited : source.toData.items? with
  | none => exact ⟨Fault.calm_ofComplaint _, hs⟩
  | some items =>
      refine ⟨⟨s.session.loops.lastId + 1, found, items, none, s.session.currentItem⟩, rfl,
        fun _ => Value.canonical_of_items? visited, rfl, hs.item, ?_⟩
      refine ⟨⟨hs.sound.failure, hs.sound.host, hs.sound.compiled⟩, ?_, hs.item⟩
      exact congrArg _ hs.frames

theorem loopValue_avoids {s : RenderState σ} :
    ∃ value, loopValue.run.run s = (.ok value, s) ∧ value.Avoids hidden := by
  unfold loopValue
  rw [run_get_bind]
  cases s.session.loops.metadata? with
  | some metadata => exact ⟨_, rfl, Value.avoids_metadataValue metadata⟩
  | none => exact ⟨_, rfl, trivial⟩

theorem changeLoops_of_ok {change : Session → Except LoopStackError Session}
    {before after : RenderState σ → Prop} {stopped : Fault → RenderState σ → Prop}
    (h : ∀ s, before s → ∃ session, change s.session = .ok session ∧ after { s with session }) :
    (changeLoops change).Meets before (fun value s => value.Avoids hidden ∧ after s) stopped := by
  intro s hs
  obtain ⟨session, changed, ended⟩ := h s hs
  obtain ⟨value, read, avoids⟩ :
      ∃ value, (loopValue : Evaluation (RenderState σ) Value).run.run { s with session } =
        (.ok value, { s with session }) ∧ value.Avoids hidden := loopValue_avoids
  have run : (changeLoops change).run.run s = (.ok value, { s with session }) := by
    unfold changeLoops
    rw [run_get_bind, changed]
    exact read
  rw [run]
  exact ⟨avoids, ended⟩

theorem loopNext_moves {frame : LoopFrame} {steps : Nat} {next : Data}
    (reached : frame.items[steps]? = some next) :
    (loopNext site (.ofData next) frame.kind.name).Meets
      (Steady w hidden (moved frame steps :: frames) (itemInside [moved frame steps] item))
      (fun value s => value.Avoids hidden ∧
        Steady w hidden (moved frame (steps + 1) :: frames)
          (itemInside [moved frame (steps + 1)] item) s)
      fun fault s => fault.Calm w.strict ∧
        Steady w hidden (moved frame steps :: frames) (itemInside [moved frame steps] item) s := by
  unfold loopNext
  refine Meets.bind _ checkActive_preserves fun _ => ?_
  refine Meets.bind
    (fun found s => found = frame.kind ∧
      Steady w hidden (moved frame steps :: frames) (itemInside [moved frame steps] item) s)
    (loopKind_name _ fun s hs => ⟨rfl, hs.2⟩) fun found => ?_
  rintro s ⟨rfl, hs⟩
  refine changeLoops_of_ok (fun s hs => ?_) s hs
  have inside : steps < frame.items.length := (List.getElem?_eq_some_iff.mp reached).1
  have advanced : s.session.loops.advance frame.kind =
      .ok { s.session.loops with frames := moved frame (steps + 1) :: frames } := by
    unfold LoopStack.advance LoopStack.topOfKind
    simp only [hs.frames, kind_moved, beq_self_eq_true, if_true]
    show (if (moved frame steps).iteration < (moved frame steps).items.length then _ else _) = _
    rw [iteration_moved, items_moved, if_pos inside, ← moved_moved, iteration_moved]
    cases steps <;> rfl
  unfold Session.nextLoop
  rw [advanced]
  refine ⟨_, rfl, ⟨hs.sound.failure, hs.sound.host, hs.sound.compiled⟩, rfl, fun followed => ?_⟩
  have current : (moved frame (steps + 1)).current? = some next := reached
  have before := hs.item followed
  simp only [itemInside, kind_moved, current]
  split
  · rfl
  · next free =>
      simp only [itemInside, kind_moved, free] at before
      simpa [free] using before

theorem loopPop_closes {frame : LoopFrame} {steps : Nat}
    (restores : w.tracked → frame.restore = item) :
    (loopPop site frame.kind.name).Meets
      (Steady w hidden (moved frame steps :: frames) (itemInside [moved frame steps] item))
      (fun value s => value.Avoids hidden ∧ Steady w hidden frames item s)
      fun fault s => fault.Calm w.strict ∧
        Steady w hidden (moved frame steps :: frames) (itemInside [moved frame steps] item) s := by
  unfold loopPop
  refine Meets.bind _ checkActive_preserves fun _ => ?_
  refine Meets.bind
    (fun found s => found = frame.kind ∧
      Steady w hidden (moved frame steps :: frames) (itemInside [moved frame steps] item) s)
    (loopKind_name _ fun s hs => ⟨rfl, hs.2⟩) fun found => ?_
  rintro s ⟨rfl, hs⟩
  refine changeLoops_of_ok (fun s hs => ?_) s hs
  have popped : s.session.loops.pop frame.kind =
      .ok (moved frame steps, { s.session.loops with frames := frames }) := by
    unfold LoopStack.pop LoopStack.topOfKind
    simp only [hs.frames, kind_moved, beq_self_eq_true, if_true]
    rfl
  unfold Session.popLoop
  rw [popped]
  refine ⟨_, rfl, ⟨hs.sound.failure, hs.sound.host, hs.sound.compiled⟩, rfl, fun followed => ?_⟩
  have before := hs.item followed
  cases binds : frame.kind.bindsCurrentItem with
  | true => simp [restore_moved, restores followed]
  | false => simpa [itemInside, kind_moved, binds] using before

end ThemeTemplates.Render
