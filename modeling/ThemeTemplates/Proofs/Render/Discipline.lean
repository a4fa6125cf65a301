import ThemeTemplates.Proofs.Render.Calls

/-!
# Tidy code keeps its loops

Tidy code that runs to its end leaves the loops and the current item as they were before it. If it
stops, loops of its own may be left above those. The induction is over the shape of tidy code; the
invariant of a loop directive is that its frame has made as many steps as its `for` has begun turns.
Renders inside renders are covered by induction on how many of them may be inside each other.
-/

namespace ThemeTemplates.Render

open Evaluation

variable {σ : Type} {w : Watch σ} {hidden : String → Prop} {frames : List LoopFrame} {item : Data}
  {render : Render σ} {renderer : Renderer σ} {site : Site}

/-- An evaluation that leaves a steady state as it was, unless it is stranded. -/
def Settles {α : Type} (w : Watch σ) (hidden : String → Prop) (frames : List LoopFrame)
    (item : Data) (evaluation : Evaluation (RenderState σ) α) (after : α → Prop) : Prop :=
  evaluation.Meets (Steady w hidden frames item)
    (fun value s => after value ∧ Steady w hidden frames item s)
    fun fault s => fault.Calm w.strict ∧ Stranded w hidden frames item s

section

variable {α β : Type} {after : α → Prop}

theorem settles_of_preserves {evaluation : Evaluation (RenderState σ) α}
    (h : Preserves w.strict (Steady w hidden frames item) evaluation after) :
    Settles w hidden frames item evaluation after :=
  Meets.weaken h (fun _ _ hs => hs) fun _ _ hs => ⟨hs.1, hs.2.stranded⟩

theorem Settles.pure {value : α} (h : after value) :
    Settles w hidden frames item (Pure.pure value) after :=
  Meets.pure fun _ hs => ⟨h, hs⟩

theorem Settles.bind {first : Evaluation (RenderState σ) α}
    {next : α → Evaluation (RenderState σ) β} {after' : β → Prop}
    (h : Settles w hidden frames item first after)
    (hnext : ∀ value, after value → Settles w hidden frames item (next value) after') :
    Settles w hidden frames item (first >>= next) after' := by
  refine Meets.bind _ h fun value => ?_
  rintro s ⟨hvalue, hs⟩
  exact hnext value hvalue s hs

theorem Settles.locate {evaluation : Evaluation (RenderState σ) α} {template : String} {line : Nat}
    (h : Settles w hidden frames item evaluation after) :
    Settles w hidden frames item (Evaluation.locate template line evaluation) after :=
  Meets.locate (Meets.weaken h (fun _ _ hs => hs) fun _ _ hs => ⟨hs.1.located _, hs.2⟩)

end

/-- What runs pages and blocks runs tidy ones so that they settle. -/
def RunsTidily (w : Watch σ) (hidden : String → Prop) (run : Runner (RenderState σ)) : Prop :=
  ∀ frames item template body discarded progress, Tidy hidden body → progress.Tidy hidden →
    Settles w hidden frames item (run template body discarded progress) (Progress.Tidy hidden)

/-! ### Pages -/

theorem fetch_preserves (hw : Watched w hidden render) (template : String) :
    Preserves w.strict (Steady w hidden frames item) (render.fetch template)
      fun page => Tidy hidden page.body := by
  intro s hs
  have run : (render.fetch template).run.run s =
      ((render.library.fetch s.compiled template).1,
        { s with compiled := (render.library.fetch s.compiled template).2 }) := rfl
  rw [run]
  unfold Library.fetch
  cases known : s.compiled.find? template with
  | some page =>
      exact ⟨hs.sound.compiled _ _ (Value.mem_of_lookup_eq_some known), hs⟩
  | none =>
      cases compiled : render.library.compile template with
      | error fault => exact ⟨hw.faults _ _ compiled, hs⟩
      | ok page =>
          have tidy := hw.pages _ _ compiled
          refine ⟨tidy, ⟨hs.sound.failure, hs.sound.host, fun name kept hmem => ?_⟩,
            hs.frames, hs.item⟩
          rcases Fields.mem_insert hmem with hmem | hmem
          · cases hmem
            exact tidy
          · exact hs.sound.compiled name kept hmem

theorem checkDepth_preserves (scope : Scope) :
    Preserves w.strict (Steady w hidden frames item) (checkDepth scope) fun _ => True := by
  unfold checkDepth
  split
  · exact Preserves.complain _
  · exact Preserves.pure trivial

theorem templateName_preserves (value : Value) :
    Preserves w.strict (Steady w hidden frames item) (templateName value) fun _ => True := by
  unfold templateName
  split
  · exact Preserves.pure trivial
  · exact Preserves.complain _

theorem firstPage?_preserves (hw : Watched w hidden render) (choices : List Value) :
    Preserves w.strict (Steady w hidden frames item)
      (firstPage? (render.surroundings renderer) choices)
      fun page? => ∀ page, page? = some page → Tidy hidden page.body := by
  induction choices with
  | nil => exact Preserves.pure fun _ found => nomatch found
  | cons choice rest ih =>
      refine Preserves.bind (templateName_preserves choice) fun template _ => ?_
      have loads : Preserves w.strict (Steady w hidden frames item)
          (tryCatch (some <$> render.fetch template) fun fault =>
            if fault.cause = .missingTemplate then return none else throw fault)
          fun page? => ∀ page, page? = some page → Tidy hidden page.body := by
        refine Meets.tryCatch
          (fun fault s => fault.Calm w.strict ∧ Steady w hidden frames item s) ?_ ?_
        · rw [map_eq_pure_bind]
          refine Preserves.bind (fetch_preserves hw template) fun page tidy => ?_
          refine Preserves.pure fun found same => ?_
          cases same
          exact tidy
        · intro fault
          split
          · exact Meets.pure fun s hs => ⟨(fun _ found => nomatch found), hs.2⟩
          · exact Meets.throw fun s hs => hs
      refine Preserves.bind loads fun page? tidy => ?_
      cases page? with
      | some page => exact Preserves.pure tidy
      | none => exact ih

theorem tidy_start {given : Fields Value}
    (hgiven : ∀ name value, (name, value) ∈ given → value.Bindable hidden name)
    {blocks : Fields Block}
    (hblocks : ∀ name block, (name, block) ∈ blocks → Tidy hidden block.body) :
    Progress.Tidy hidden { scope := { given }, blocks } := by
  refine ⟨⟨fun frame hmem => ?_, hgiven⟩, hblocks, fun _ found => nomatch found⟩
  rw [List.mem_singleton.mp hmem]
  exact ⟨by simp, by simp⟩

theorem tidy_print {progress : Progress} (h : progress.Tidy hidden) (text : String) :
    (progress.print text).Tidy hidden := by
  unfold Progress.print
  split
  · exact h
  · exact ⟨h.scope, h.blocks, h.parent⟩

theorem tidy_set {progress : Progress} (hprogress : progress.Tidy hidden) {name : String}
    (visible : ¬ hidden name) {value : Value} (hvalue : value.Avoids hidden) :
    { progress with scope := progress.scope.set name value }.Tidy hidden :=
  ⟨hprogress.scope.set (Value.bindable_of_not_hidden hvalue visible), hprogress.blocks,
    hprogress.parent⟩

theorem avoids_include {scope : Scope} (h : scope.Avoids hidden) (included : Nat) :
    { scope with included := included }.Avoids hidden :=
  ⟨h.frames, h.given⟩

section

variable {running : Running (RenderState σ)} {progress : Progress}

theorem embedPage_settles (hrun : RunsTidily w hidden running.run)
    (hprogress : progress.Tidy hidden) {page : Page} (tidy : Tidy hidden page.body) :
    Settles w hidden frames item (embedPage running progress page) (Progress.Tidy hidden) := by
  unfold embedPage
  refine Settles.bind (settles_of_preserves (checkDepth_preserves _)) fun _ _ => ?_
  refine Settles.bind (Meets.tryCatch
    (fun fault s => fault.Calm w.strict ∧ Stranded w hidden frames item s)
    (hrun frames item _ _ _ _ tidy ?_) fun fault => ?_) fun stop hstop => ?_
  · exact ⟨avoids_include hprogress.scope _, fun _ _ => tidy.of_mem_blocks,
      fun _ found => nomatch found⟩
  · exact Meets.throw fun s hs => ⟨hs.1.wrapping _ _, hs.2⟩
  · refine Settles.pure (tidy_print ?_ _)
    exact ⟨avoids_include hstop.scope _, hprogress.blocks, hprogress.parent⟩

theorem embed_settles (hw : Watched w hidden render)
    (hsurroundings : running.surroundings = render.surroundings renderer)
    (hrun : RunsTidily w hidden running.run) (hprogress : progress.Tidy hidden) (value : Value) :
    Settles w hidden frames item (embed running progress value) (Progress.Tidy hidden) := by
  unfold embed
  rw [hsurroundings]
  refine Settles.bind (settles_of_preserves (firstPage?_preserves hw _)) fun page? tidy => ?_
  cases page? with
  | some page => exact embedPage_settles hrun hprogress (tidy page rfl)
  | none =>
      simp only
      split
      · exact Settles.pure hprogress
      · exact Meets.throw fun s hs => ⟨Fault.calm_plain _ _, hs.stranded⟩

theorem inherit_settles (hw : Watched w hidden render)
    (hsurroundings : running.surroundings = render.surroundings renderer)
    (hprogress : progress.Tidy hidden) (value : Value) :
    Settles w hidden frames item (inherit running progress value) (Progress.Tidy hidden) := by
  refine settles_of_preserves ?_
  unfold inherit
  rw [hsurroundings]
  dsimp only
  split
  · exact Preserves.complain_bind _ _
  refine Preserves.bind (templateName_preserves value) fun template _ => ?_
  split
  · exact Preserves.complain_bind _ _
  refine Preserves.bind (fetch_preserves hw template) fun page tidy => ?_
  refine Preserves.pure ⟨hprogress.scope, fun name block hmem => ?_, fun found same => ?_⟩
  · rcases Fields.mem_overlay hmem with hmem | hmem
    · exact hprogress.blocks name block hmem
    · exact tidy.of_mem_blocks hmem
  · cases same
    exact tidy

theorem callBlock_settles (hrun : RunsTidily w hidden running.run)
    (hprogress : progress.Tidy hidden) (name : String) :
    Settles w hidden frames item (callBlock running progress name) (Progress.Tidy hidden) := by
  unfold callBlock
  split
  · exact Settles.pure hprogress
  split
  · exact Settles.pure hprogress
  · next block found =>
      have tidy := hprogress.blocks name block (Value.mem_of_lookup_eq_some found)
      refine Settles.bind (settles_of_preserves (checkDepth_preserves _)) fun _ _ => ?_
      refine Settles.bind (hrun frames item _ _ _ _ tidy ?_) fun stop hstop => ?_
      · exact ⟨hprogress.scope.enter ⟨by simp, by simp⟩, hprogress.blocks,
          fun _ found => nomatch found⟩
      · exact Settles.pure ⟨hstop.scope.leave, hstop.blocks, fun _ found => nomatch found⟩

end

/-! ### Loops -/

theorem forItems_meets (inv : Nat → RenderState σ → Prop) {stopped : Fault → RenderState σ → Prop}
    (Q : Value → Fields Value → Prop) {length depth : Nat}
    {bind : Value → Evaluation (RenderState σ) (Fields Value)}
    {body : Progress → Evaluation (RenderState σ) Progress} (rest : List Value)
    (avoid : Value.ItemsAvoid hidden rest)
    (hbind : ∀ k, ∀ element ∈ rest,
      (bind element).Meets (inv k) (fun locals s => Q element locals ∧ inv k s) stopped)
    (index : Nat)
    (hbody : ∀ (offset : Nat) (element : Value) (locals : Fields Value) (previous next : Value)
      (progress : Progress), rest[offset]? = some element → Q element locals →
      previous.Avoids hidden → next.Avoids hidden → progress.Tidy hidden →
      (body { progress with
        scope := progress.scope.enter
          { locals, loop := some (.forState (index + offset) length depth previous next) } }).Meets
        (inv (index + offset))
        (fun stop s => stop.Tidy hidden ∧ inv (index + offset + 1) s) stopped)
    {previous : Value} (hprevious : previous.Avoids hidden) {progress : Progress}
    (hprogress : progress.Tidy hidden) :
    (forItems length depth bind body index previous rest progress).Meets (inv index)
      (fun stop s => stop.Tidy hidden ∧ inv (index + rest.length) s) stopped := by
  induction rest generalizing index previous progress with
  | nil => exact Meets.pure fun s hs => ⟨hprogress, hs⟩
  | cons element rest ih =>
      have hnext : (rest.head?.getD .undefined).Avoids hidden := by
        cases rest with
        | nil => trivial
        | cons next _ => exact avoid.2.1
      refine Meets.bind _ (hbind index element List.mem_cons_self) fun locals => ?_
      rintro s ⟨hlocals, hs⟩
      refine Meets.bind (fun stop s => stop.Tidy hidden ∧ inv (index + 1) s)
        (hbody 0 element locals previous _ progress rfl hlocals hprevious hnext hprogress)
        (fun stop => ?_) s hs
      rintro t ⟨hstop, ht⟩
      have after : Progress.Tidy hidden { stop with scope := stop.scope.leave } :=
        ⟨hstop.scope.leave, hstop.blocks, hstop.parent⟩
      have turns := ih avoid.2 (fun k other hother => hbind k other (List.mem_cons_of_mem _ hother))
        (index + 1) (fun offset other locals previous next progress found => by
          have := hbody (offset + 1) other locals previous next progress (by simpa using found)
          simpa only [Nat.add_assoc, Nat.add_comm 1] using this)
        avoid.1 after
      rw [List.length_cons, Nat.add_comm rest.length, ← Nat.add_assoc]
      exact turns t ht

theorem getElem?_ofItems (items : List Data) (index : Nat) :
    (Value.ofItems items)[index]? = items[index]?.map Value.ofData := by
  induction items generalizing index with
  | nil => rfl
  | cons first rest ih =>
      cases index with
      | zero => rfl
      | succ index => exact ih index

theorem length_ofItems (items : List Data) : (Value.ofItems items).length = items.length := by
  induction items with
  | nil => rfl
  | cons first rest ih => simp [Value.ofItems, ih]

theorem avoids_forFrame {locals : Fields Value} {index length depth : Nat} {previous next : Value}
    (hlocals : ∀ name value, (name, value) ∈ locals → value.Bindable hidden name)
    (hprevious : previous.Avoids hidden) (hnext : next.Avoids hidden) :
    Frame.Avoids hidden { locals, loop := some (.forState index length depth previous next) } := by
  refine ⟨hlocals, fun value same name => ?_⟩
  cases same
  exact ⟨⟨hprevious, hnext⟩, fun _ _ => Value.noConfusion⟩

section

variable (hw : Watched w hidden render) (hrenderer : renderer.Disciplined w hidden)
  (hrestores : w.tracked → render.RestoresItem w hidden renderer)
  {running : Running (RenderState σ)}
  (hsurroundings : running.surroundings = render.surroundings renderer)
  (hrun : RunsTidily w hidden running.run)

include hw hrenderer hrestores hsurroundings

theorem evalAt_settles {progress : Progress} (hprogress : progress.Tidy hidden) {e : Expression}
    (he : e.Avoids hidden) :
    Settles w hidden frames item (eval running.surroundings (running.site progress) e)
      (Value.Avoids hidden) := by
  rw [hsurroundings]
  exact settles_of_preserves (eval_steady hrenderer hrestores hw hprogress.scope he)

theorem forEach_settles {progress : Progress} (hprogress : progress.Tidy hidden)
    {name : Option String} (visible : ∀ bound, name = some bound → ¬ hidden bound)
    {source : Expression} (avoids : source.Avoids hidden) {body otherwise : List Statement}
    (hbody : ∀ progress : Progress, progress.Tidy hidden →
      Settles w hidden frames item (execAll running body progress) (Progress.Tidy hidden))
    (hotherwise : ∀ progress : Progress, progress.Tidy hidden →
      Settles w hidden frames item (execAll running otherwise progress) (Progress.Tidy hidden)) :
    Settles w hidden frames item (exec running (.forEach name source body otherwise) progress)
      (Progress.Tidy hidden) := by
  unfold exec
  refine Settles.bind
    (evalAt_settles hw hrenderer hrestores hsurroundings hprogress avoids) fun value hvalue => ?_
  refine Settles.bind (settles_of_preserves (Preserves.locate ?visits))
    fun items (hitems : Value.ItemsAvoid hidden items) => ?turns
  case visits =>
    split
    · next items found =>
        refine Preserves.bind (checkDepth_preserves _) fun _ _ => ?_
        exact Preserves.pure (Value.itemsAvoid_iff.mpr (hvalue.elements? found))
    · exact Preserves.complain _
  have binds : ∀ element ∈ items, Preserves w.strict (Steady w hidden frames item)
      (locate running.template source.line (bindElement name element))
      fun locals => ∀ bound value, (bound, value) ∈ locals → value.Bindable hidden bound := by
    intro element hmem
    refine Preserves.locate ?_
    unfold bindElement
    split
    · next bound =>
        refine Preserves.pure fun other value hother => ?_
        simp only [List.mem_singleton, Prod.mk.injEq] at hother
        obtain ⟨rfl, rfl⟩ := hother
        exact Value.bindable_of_not_hidden (Value.itemsAvoid_iff.mp hitems _ hmem)
          (visible other rfl)
    · refine Preserves.pure fun other value hother => ?_
      cases hother
    · refine Preserves.pure fun other value hother => ?_
      cases hother
    · exact Preserves.complain _
  refine Settles.bind (forItems_meets (fun _ => Steady w hidden frames item)
    (fun _ locals => ∀ bound value, (bound, value) ∈ locals → value.Bindable hidden bound) items
    hitems (fun _ element hmem => settles_of_preserves (binds element hmem)) 0
    (fun offset element locals previous next progress _ hlocals hprevious hnext hprogress =>
      hbody _ ⟨hprogress.scope.enter (avoids_forFrame hlocals hprevious hnext), hprogress.blocks,
        hprogress.parent⟩)
    (show Value.Avoids hidden .undefined from trivial) hprogress) fun stop hstop => ?_
  split
  · exact hotherwise stop hstop
  · exact Settles.pure hstop

omit hw hrenderer hrestores hsurroundings in
theorem evalAll_append (surroundings : Surroundings (RenderState σ)) (site : Site)
    (first second : List Expression) :
    evalAll surroundings site (first ++ second) = (do
      let values ← evalAll surroundings site first
      return values ++ (← evalAll surroundings site second)) := by
  induction first with
  | nil => simp [evalAll]
  | cons e rest ih => simp [evalAll, ih]

omit hw hrenderer hrestores hsurroundings in
theorem evalAll_constant (surroundings : Surroundings (RenderState σ)) (site : Site) (line : Nat)
    (value : Value) : evalAll surroundings site [.constant line value] = pure [value] := by
  simp only [evalAll, eval, pure_bind]

theorem open_meets {progress : Progress} (hprogress : progress.Tidy hidden) (kind : LoopKind)
    {sources : List Expression} (avoids : Expression.AllAvoid hidden sources)
    {line kindLine : Nat} :
    (eval running.surroundings (running.site progress)
      (.call line PageFunction.loopPush.name
        (sources ++ [.constant kindLine (.ofString kind.name)]))).Meets
          (Steady w hidden frames item)
      (fun value s => ∃ frame : LoopFrame, value = .ofData (.list frame.items) ∧
        (∀ item ∈ frame.items, item.Canonical) ∧
        frame.kind = kind ∧ (w.tracked → frame.restore = item) ∧
        Steady w hidden (moved frame 0 :: frames) item s)
      fun fault s => fault.Calm w.strict ∧ Steady w hidden frames item s := by
  rw [hsurroundings]
  refine eval_hiddenCall (P := fun values => ∃ opened, values = opened ++ [.ofString kind.name]) hw
    hprogress.scope (hw.hidesLoops _ (by simp)) ?_ fun values => ?_
  · rw [evalAll_append]
    refine Preserves.bind (evalAll_preserves hprogress.scope (calls_preserve hrenderer hrestores hw)
      avoids) fun opened _ => ?_
    rw [evalAll_constant, pure_bind]
    exact Preserves.pure ⟨opened, rfl⟩
  · rintro ⟨opened, rfl⟩
    cases opened with
    | nil => exact fun s hs => ⟨Fault.calm_ofComplaint _, hs⟩
    | cons value rest =>
        cases rest with
        | nil => exact loopPush_opens kind value
        | cons second rest =>
            cases rest <;> exact fun s hs => ⟨Fault.calm_ofComplaint _, hs⟩

omit hrenderer hrestores in
theorem step_meets {progress : Progress} (hprogress : progress.Tidy hidden) {name : String}
    {frame : LoopFrame} {steps : Nat} {next : Data} (reached : frame.items[steps]? = some next)
    (bound : progress.scope.find? name = some (.ofData next)) {line itemLine kindLine : Nat} :
    (eval running.surroundings (running.site progress)
      (.call line PageFunction.loopNext.name
        [.named itemLine name, .constant kindLine (.ofString frame.kind.name)])).Meets
      (Steady w hidden (moved frame steps :: frames) (itemInside [moved frame steps] item))
      (fun value s => value.Avoids hidden ∧
        Steady w hidden (moved frame (steps + 1) :: frames)
          (itemInside [moved frame (steps + 1)] item) s)
      fun fault s => fault.Calm w.strict ∧
        Steady w hidden (moved frame steps :: frames) (itemInside [moved frame steps] item) s := by
  rw [hsurroundings]
  refine eval_hiddenCall
    (P := fun values => values = [.ofData next, .ofString frame.kind.name]) hw
    hprogress.scope (hw.hidesLoops _ (by simp)) ?_ fun values => ?_
  · unfold evalAll
    rw [evalAll_constant]
    simp only [eval, resolve?, Running.site, bound, pure_bind, Option.getD_some]
    exact Preserves.pure rfl
  · rintro rfl
    exact loopNext_moves reached

omit hrenderer hrestores in
theorem close_meets {progress : Progress} (hprogress : progress.Tidy hidden) {frame : LoopFrame}
    {steps : Nat} (restores : w.tracked → frame.restore = item) {line kindLine : Nat} :
    (eval running.surroundings (running.site progress)
      (.call line PageFunction.loopPop.name [.constant kindLine (.ofString frame.kind.name)])).Meets
      (Steady w hidden (moved frame steps :: frames) (itemInside [moved frame steps] item))
      (fun value s => value.Avoids hidden ∧ Steady w hidden frames item s)
      fun fault s => fault.Calm w.strict ∧
        Steady w hidden (moved frame steps :: frames) (itemInside [moved frame steps] item) s := by
  rw [hsurroundings]
  refine eval_hiddenCall (P := fun values => values = [.ofString frame.kind.name]) hw
    hprogress.scope (hw.hidesLoops _ (by simp)) ?_ fun values => ?_
  · rw [evalAll_constant]
    exact Preserves.pure rfl
  · rintro rfl
    exact loopPop_closes restores

omit hw hrenderer hrestores hsurroundings in
theorem itemInside_unmoved (frame : LoopFrame) (item : Data) :
    itemInside [moved frame 0] item = item := by
  simp only [itemInside]
  split <;> rfl

omit hw hrenderer hrestores hsurroundings in
theorem find?_enter_single (scope : Scope) (name : String) (value : Value) (loop : Option Value) :
    (scope.enter { locals := [(name, value)], loop }).find? name = some value := by
  simp [Scope.find?, Scope.enter, Frame.find?, Fields.find?]

omit hw hrenderer hrestores hsurroundings in
/-- What stops above the frame of a loop is stranded above the loops around it. -/
theorem Settles.beneath {α : Type} {evaluation : Evaluation (RenderState σ) α}
    {frame : LoopFrame} {after : α → Prop}
    (h : Settles w hidden (frame :: frames) (itemInside [frame] item) evaluation after) :
    evaluation.Meets (Steady w hidden (frame :: frames) (itemInside [frame] item))
      (fun value s => after value ∧
        Steady w hidden (frame :: frames) (itemInside [frame] item) s)
      fun fault s => fault.Calm w.strict ∧ Stranded w hidden frames item s :=
  Meets.weaken h (fun _ _ hs => hs) fun _ _ hs => ⟨hs.1, Stranded.beneath [frame] hs.2⟩

omit hrenderer hrestores in
/-- One turn of a loop directive: the frame moves on by one step, and the body leaves it there. -/
theorem turn_meets {progress : Progress} (hprogress : progress.Tidy hidden) {name opened : String}
    (visibleOpened : ¬ hidden opened) {frame : LoopFrame} {steps : Nat} {next : Data}
    (reached : frame.items[steps]? = some next)
    (bound : progress.scope.find? name = some (.ofData next)) {line itemLine kindLine : Nat}
    {body : List Statement}
    (hbody : ∀ frames item (progress : Progress), progress.Tidy hidden →
      Settles w hidden frames item (execAll running body progress) (Progress.Tidy hidden)) :
    (execAll running
      (.set opened (.call line PageFunction.loopNext.name
        [.named itemLine name, .constant kindLine (.ofString frame.kind.name)]) :: body)
      progress).Meets
      (Steady w hidden (moved frame steps :: frames) (itemInside [moved frame steps] item))
      (fun stop s => stop.Tidy hidden ∧
        Steady w hidden (moved frame (steps + 1) :: frames)
          (itemInside [moved frame (steps + 1)] item) s)
      fun fault s => fault.Calm w.strict ∧ Stranded w hidden frames item s := by
  unfold execAll exec
  rw [bind_assoc]
  refine Meets.bind _ (Meets.weaken
    (step_meets hw hsurroundings hprogress reached bound) (fun _ _ hs => hs)
    fun _ _ hs => ⟨hs.1, Stranded.beneath [_] hs.2.stranded⟩) fun value => ?_
  rintro s ⟨hvalue, hs⟩
  rw [pure_bind]
  exact (hbody _ _ _ (tidy_set hprogress visibleOpened hvalue)).beneath s hs

omit hrenderer hrestores in
theorem turns_meets {progress : Progress} (hprogress : progress.Tidy hidden) {name opened : String}
    (visibleOpened : ¬ hidden opened) {frame : LoopFrame}
    {place line itemLine kindLine length depth : Nat} {body : List Statement}
    (hbody : ∀ frames item (progress : Progress), progress.Tidy hidden →
      Settles w hidden frames item (execAll running body progress) (Progress.Tidy hidden)) :
    (forItems length depth
      (fun element => locate running.template place (bindElement (some name) element))
      (execAll running
        (.set opened (.call line PageFunction.loopNext.name
          [.named itemLine name, .constant kindLine (.ofString frame.kind.name)]) :: body))
      0 .undefined (Value.ofItems frame.items) progress).Meets
      (Steady w hidden (moved frame 0 :: frames) (itemInside [moved frame 0] item))
      (fun stop s => stop.Tidy hidden ∧
        Steady w hidden (moved frame (0 + (Value.ofItems frame.items).length) :: frames)
          (itemInside [moved frame (0 + (Value.ofItems frame.items).length)] item) s)
      fun fault s => fault.Calm w.strict ∧ Stranded w hidden frames item s := by
  refine forItems_meets
    (fun steps =>
      Steady w hidden (moved frame steps :: frames) (itemInside [moved frame steps] item))
    (fun element locals => locals = [(name, element)]) _ (Value.itemsAvoid_ofItems frame.items)
    (fun steps element _ => Meets.locate (Meets.pure fun _ hs => ⟨rfl, hs⟩)) 0 ?_
    (show Value.Avoids hidden .undefined from trivial) hprogress
  rintro offset element locals previous next progress found rfl hprevious hnext hprogress
  rw [getElem?_ofItems, Option.map_eq_some_iff] at found
  obtain ⟨reached, found, rfl⟩ := found
  rw [Nat.zero_add]
  have hframe : Frame.Avoids hidden
      { locals := [(name, Value.ofData reached)],
        loop := some (.forState offset length depth previous next) } := by
    refine avoids_forFrame (fun bound value hmem => ?_) hprevious hnext
    simp only [List.mem_singleton, Prod.mk.injEq] at hmem
    obtain ⟨rfl, rfl⟩ := hmem
    exact Value.bindable_ofData _ _
  have hinner : Progress.Tidy hidden
      { progress with
        scope := progress.scope.enter
          { locals := [(name, Value.ofData reached)],
            loop := some (.forState offset length depth previous next) } } :=
    ⟨hprogress.scope.enter hframe, hprogress.blocks, hprogress.parent⟩
  exact turn_meets hw hsurroundings hinner visibleOpened found (find?_enter_single _ _ _ _) hbody

theorem loop_settles {progress : Progress} (hprogress : progress.Tidy hidden) (kind : LoopKind)
    {name opened closed : String} (visibleOpened : ¬ hidden opened)
    (visibleClosed : ¬ hidden closed) {sources : List Expression}
    (avoids : Expression.AllAvoid hidden sources)
    {pushLine pushKind stepLine stepItem stepKind popLine popKind : Nat}
    {body rest : List Statement}
    (hbody : ∀ frames item (progress : Progress), progress.Tidy hidden →
      Settles w hidden frames item (execAll running body progress) (Progress.Tidy hidden))
    (hrest : ∀ progress : Progress, progress.Tidy hidden →
      Settles w hidden frames item (execAll running rest progress) (Progress.Tidy hidden)) :
    Settles w hidden frames item
      (execAll running
        (.forEach (some name)
            (.call pushLine PageFunction.loopPush.name
              (sources ++ [.constant pushKind (.ofString kind.name)]))
            (.set opened
                (.call stepLine PageFunction.loopNext.name
                  [.named stepItem name, .constant stepKind (.ofString kind.name)]) :: body)
            [] ::
          .set closed
              (.call popLine PageFunction.loopPop.name
                [.constant popKind (.ofString kind.name)]) ::
            rest)
        progress)
      (Progress.Tidy hidden) := by
  have turned : (exec running (.forEach (some name)
      (.call pushLine PageFunction.loopPush.name
        (sources ++ [.constant pushKind (.ofString kind.name)]))
      (.set opened
          (.call stepLine PageFunction.loopNext.name
            [.named stepItem name, .constant stepKind (.ofString kind.name)]) :: body)
      []) progress).Meets (Steady w hidden frames item)
      (fun stop s => stop.Tidy hidden ∧ ∃ (frame : LoopFrame) (steps : Nat), frame.kind = kind ∧
        (w.tracked → frame.restore = item) ∧
        Steady w hidden (moved frame steps :: frames) (itemInside [moved frame steps] item) s)
      fun fault s => fault.Calm w.strict ∧ Stranded w hidden frames item s := by
    unfold exec
    refine Meets.bind _ (Meets.weaken
      (open_meets hw hrenderer hrestores hsurroundings hprogress kind avoids) (fun _ _ hs => hs)
      fun _ _ hs => ⟨hs.1, hs.2.stranded⟩) fun value => ?_
    rintro s ⟨frame, rfl, -, rfl, restores, hs⟩
    rw [← itemInside_unmoved frame item] at hs
    refine Meets.bind (fun items s => items = Value.ofItems frame.items ∧
      Steady w hidden (moved frame 0 :: frames) (itemInside [moved frame 0] item) s)
      (Settles.beneath (Settles.locate ?visits)) (fun items => ?turns) s hs
    case visits =>
      refine Settles.bind (settles_of_preserves (checkDepth_preserves _)) fun _ _ => ?_
      exact Settles.pure rfl
    rintro s ⟨rfl, hs⟩
    refine Meets.bind _ (turns_meets hw hsurroundings hprogress visibleOpened hbody)
      (fun stop => ?_) s hs
    rintro s ⟨hstop, hs⟩
    have unchanged : (if (Value.ofItems frame.items).isEmpty then execAll running [] stop
        else pure stop : Evaluation (RenderState σ) Progress) = pure stop := by
      rw [execAll, ite_self]
    rw [unchanged]
    exact ⟨hstop, frame, _, rfl, restores, hs⟩
  rw [execAll]
  refine Meets.bind _ turned fun stop => ?_
  rintro s ⟨hstop, frame, steps, rfl, restores, hs⟩
  rw [execAll, exec, bind_assoc]
  refine Meets.bind _ (Meets.weaken
    (close_meets hw hsurroundings hstop restores) (fun _ _ hs => hs)
    fun _ _ hs => ⟨hs.1, Stranded.beneath [_] hs.2.stranded⟩) (fun value => ?_) s hs
  rintro s ⟨hvalue, hs⟩
  rw [pure_bind]
  exact hrest _ (tidy_set hstop visibleClosed hvalue) s hs

include hrun

theorem execAll_settles {statements : List Statement} (h : Tidy hidden statements) :
    ∀ frames item (progress : Progress), progress.Tidy hidden →
      Settles w hidden frames item (execAll running statements progress)
        (Progress.Tidy hidden) := by
  have evaluates : ∀ {frames item} {e : Expression} (_ : e.Avoids hidden) {progress : Progress}
      (_ : progress.Tidy hidden), Settles w hidden frames item
        (eval running.surroundings (running.site progress) e) (Value.Avoids hidden) :=
    fun avoids _ hprogress => evalAt_settles hw hrenderer hrestores hsurroundings hprogress avoids
  induction h with
  | nil => exact fun _ _ progress hprogress => Settles.pure hprogress
  | text s _ ih =>
      intro frames item progress hprogress
      rw [execAll, exec, pure_bind]
      exact ih _ _ _ (tidy_print hprogress s)
  | echo avoids _ ih =>
      intro frames item progress hprogress
      rw [execAll, exec, bind_assoc]
      refine Settles.bind (evaluates avoids hprogress) fun value _ => ?_
      rw [pure_bind]
      exact ih _ _ _ (tidy_print hprogress _)
  | set visible avoids _ ih =>
      intro frames item progress hprogress
      rw [execAll, exec, bind_assoc]
      refine Settles.bind (evaluates avoids hprogress) fun value hvalue => ?_
      rw [pure_bind]
      exact ih _ _ _ (tidy_set hprogress visible hvalue)
  | @conditional _ body otherwise _ avoids _ _ _ ihBody ihOtherwise ihRest =>
      intro frames item progress hprogress
      rw [execAll, exec, bind_assoc]
      refine Settles.bind (evaluates avoids hprogress) fun value _ => ?_
      have branch : Settles w hidden frames item
          (if value.isTrue then execAll running body progress
            else execAll running otherwise progress)
          (Progress.Tidy hidden) := by
        split
        · exact ihBody _ _ progress hprogress
        · exact ihOtherwise _ _ progress hprogress
      exact Settles.bind branch fun stop hstop => ihRest _ _ stop hstop
  | forEach visible avoids _ _ _ ihBody ihOtherwise ihRest =>
      intro frames item progress hprogress
      rw [execAll]
      refine Settles.bind (forEach_settles hw hrenderer hrestores hsurroundings hprogress visible
        avoids (ihBody frames item) (ihOtherwise frames item)) fun stop hstop => ?_
      exact ihRest _ _ stop hstop
  | embed avoids _ ih =>
      intro frames item progress hprogress
      rw [execAll, exec, bind_assoc]
      refine Settles.bind (evaluates avoids hprogress) fun value _ => ?_
      refine Settles.bind (Settles.locate (embed_settles hw hsurroundings hrun hprogress value))
        fun stop hstop => ?_
      exact ih _ _ stop hstop
  | inherit avoids _ ih =>
      intro frames item progress hprogress
      rw [execAll, exec, bind_assoc]
      refine Settles.bind (evaluates avoids hprogress) fun value _ => ?_
      refine Settles.bind (Settles.locate (inherit_settles hw hsurroundings hprogress value))
        fun stop hstop => ?_
      exact ih _ _ stop hstop
  | block _ _ _ ih =>
      intro frames item progress hprogress
      rw [execAll, exec]
      refine Settles.bind (Settles.locate (callBlock_settles hrun hprogress _)) fun stop hstop => ?_
      exact ih _ _ stop hstop
  | loop kind visibleOpened visibleClosed avoids _ _ ihBody ihRest =>
      intro frames item progress hprogress
      exact loop_settles hw hrenderer hrestores hsurroundings hprogress kind visibleOpened
        visibleClosed avoids ihBody (ihRest frames item)

end

/-! ### Renders -/

section

variable (hw : Watched w hidden render) (hrenderer : renderer.Disciplined w hidden)
  (hrestores : w.tracked → render.RestoresItem w hidden renderer)

include hw hrenderer hrestores

theorem runWithin_tidily (levels : Nat) :
    RunsTidily w hidden (runWithin (render.surroundings renderer) levels) := by
  induction levels with
  | zero =>
      intro frames item template body discarded progress _ _
      exact settles_of_preserves (Preserves.complain _)
  | succ levels ih =>
      intro frames item template body discarded progress tidy hprogress
      unfold runWithin
      refine Settles.bind
        (execAll_settles hw hrenderer hrestores rfl ih tidy frames item progress hprogress)
        fun stop hstop => ?_
      split
      · exact Settles.pure hstop
      · next page found =>
          exact ih _ _ _ _ _ _ (hstop.parent page found)
            ⟨hstop.scope, hstop.blocks, fun _ found => nomatch found⟩

theorem printPage_settles {page : Page} (tidy : Tidy hidden page.body) {given : Fields Value}
    (hgiven : ∀ name value, (name, value) ∈ given → value.Bindable hidden name) :
    Settles w hidden frames item (printPage (render.surroundings renderer) page given)
      fun _ => True := by
  unfold printPage
  exact Settles.bind (runWithin_tidily hw hrenderer hrestores levelLimit frames item _ _ _ _ tidy
    (tidy_start hgiven fun _ _ => tidy.of_mem_blocks)) fun _ _ => Settles.pure trivial

end

/-- Tidy templates rendered within each other keep to the discipline at every level, given that
failing children restore the current item where it is followed. -/
theorem renderWithin_disciplined (hw : Watched w hidden render) (levels : Nat)
    (hrestores : w.tracked → ∀ level < levels, render.RestoresItem w hidden
      (render.renderWithin level)) :
    Renderer.Disciplined w hidden (render.renderWithin levels) := by
  induction levels with
  | zero =>
      intro frames item template given _ s hs
      exact ⟨Fault.calm_ofComplaint _, hs.stranded⟩
  | succ levels ih =>
      have hrenderer := ih fun followed level below => hrestores followed level (by omega)
      intro frames item template given hgiven
      unfold renderWithin
      refine Meets.weaken (Settles.bind (settles_of_preserves (fetch_preserves hw template))
        fun page tidy => printPage_settles hw hrenderer
          (fun followed => hrestores followed levels (by omega)) tidy hgiven)
        (fun _ _ hs => hs.2) fun _ _ hs => hs

end ThemeTemplates.Render
