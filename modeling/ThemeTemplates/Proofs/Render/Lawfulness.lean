import ThemeTemplates.Proofs.Render.Obedience

/-!
# Loops by the law

The calls that open, move and close the frame of a loop do to the state of a render what the law
says of its loops. By induction on the outline of a page, the whole page does what its law does; by
induction on how many renders may be inside each other, so does every render.
-/

namespace ThemeTemplates.Render

open Evaluation

variable {σ : Type} {library : Library} {levels : Nat} {frames : List LoopFrame}
  {enclosing : List Turn} {render : Render σ} {renderer : Renderer σ}
  {inner? : Option (LawfulRenderer σ)} {site : Site}

/-! ### The functions of loops -/

theorem mem_loopFunctions_of_kind {function : PageFunction}
    (hmem : function ∈ [PageFunction.loopPush, .loopNext, .loopPop]) :
    Token.IsHidden function.name :=
  OfLoops.isHidden ⟨function, hmem, rfl⟩

theorem eval_loopCall (visible : ∀ name ∈ render.host.functions, ¬ Token.IsHidden name)
    (clear : site.scope.Clear) {function : PageFunction}
    (hmem : function ∈ [PageFunction.loopPush, .loopNext, .loopPop]) (line : Nat)
    (args : List Expression) :
    eval (render.surroundings renderer) site (.call line function.name args) = (do
      let values ← evalAll (render.surroundings renderer) site args
      locate site.template line (render.callFunction renderer site function values)) := by
  have isHidden := mem_loopFunctions_of_kind hmem
  have other : function.name ≠ sessionVariable := by
    simp only [List.mem_cons, List.not_mem_nil, or_false] at hmem
    rcases hmem with rfl | rfl | rfl <;> decide +kernel
  have unshadowed : site.scope.find? function.name = none := by
    rw [clear.find? isHidden, if_neg other]
  have unknown : render.host.functions.contains function.name = false := by
    simpa using fun known => visible function.name known isHidden
  have reached : ∀ values, (render.surroundings renderer).call site function.name values =
      render.callFunction renderer site function values := by
    intro values
    simp only [surroundings, unknown, PageFunction.ofName?_name, Bool.false_eq_true, if_false]
  simp only [eval, resolve?, unshadowed, isFunction_name, if_true, ownCalls_contains_name,
    Bool.false_eq_true, if_false, applyValue, reached]

theorem run_loopValue {s : RenderState σ}
    (h : s.session.loops.metadata? = Turn.metadata? enclosing) :
    (loopValue.run.run s : Except Fault Value × RenderState σ) =
      (.ok (Turn.value enclosing), s) := by
  unfold loopValue
  rw [run_get_bind, h, Turn.value_eq]
  cases Turn.metadata? enclosing <;> rfl

theorem run_changeLoops {change : Session → Except LoopStackError Session} {s : RenderState σ}
    {session : Session} (changed : change s.session = .ok session)
    (metadata : session.loops.metadata? = Turn.metadata? enclosing) :
    ((changeLoops change).run.run s : Except Fault Value × RenderState σ) =
      (.ok (Turn.value enclosing), { s with session }) := by
  have loops : ({ s with session } : RenderState σ).session.loops.metadata? =
      Turn.metadata? enclosing := metadata
  unfold changeLoops
  rw [run_get_bind, changed]
  exact run_loopValue loops

theorem loopKind_ofName (kind : LoopKind) :
    (loopKind kind.name : Evaluation (RenderState σ) LoopKind) = pure kind := by
  rw [loopKind, LoopKind.ofName?_name]

/-- The frame of a loop over some items in which a render goes on. -/
structure Turning (library : Library) (levels : Nat) (frames : List LoopFrame)
    (enclosing : List Turn) (frame : LoopFrame) (steps : Nat) (scope : Scope) (s : RenderState σ)
    (r : Course σ) : Prop where
  clear : scope.Clear
  stands : List.Forall₂ Turn.Stands enclosing frames
  reflects : Reflects library levels (moved frame steps :: frames) s r

theorem Turning.strays {frame : LoopFrame} {steps : Nat} {scope : Scope} {s : RenderState σ}
    {r : Course σ}
    (h : Turning library levels frames enclosing frame steps scope s r) :
    Strays library levels frames s r :=
  ⟨[_], h.reflects⟩

theorem standOn_preserves (kind : LoopKind) (item : Data) :
    Preserves False (Lost (σ := σ)) (Outline.standOn kind item) fun _ => True := by
  cases kind with
  | loop => exact setItem_loses item
  | simpleMenu => exact Preserves.pure trivial

theorem run_standOn (kind : LoopKind) (item : Data) (r : Course σ) :
    (Outline.standOn kind item).run.run r = (.ok (),
      { r with currentItem := if kind.bindsCurrentItem then item else r.currentItem }) := by
  cases kind <;> rfl

theorem locate_standOn (kind : LoopKind) (item : Data) (template : String) (line : Nat) :
    locate template line (Outline.standOn (σ := σ) kind item) = Outline.standOn kind item := by
  cases kind <;> rfl

/-- Moving on to an item makes it the current one, if the loop is of a kind that does, and yields
the metadata of the turn. -/
theorem loopNext_mirrors {frame : LoopFrame} {steps : Nat} {item : Data}
    (reached : frame.items[steps]? = some item) (canonical : item.Canonical) :
    Mirrors (lawMirror library levels frames)
      (Turning library levels frames enclosing frame steps site.scope)
      (loopNext site (.ofData item) frame.kind.name) (Outline.standOn frame.kind item)
      (fun _ => True)
      (Determines (fun _ => Turn.value (⟨frame.items, steps⟩ :: enclosing)) fun _ =>
        Turning (σ := σ) library levels frames enclosing frame (steps + 1) site.scope) where
  loses := standOn_preserves frame.kind item
  follows := by
    rintro s r ⟨clear, stands, h⟩
    have inside : steps < frame.items.length := (List.getElem?_eq_some_iff.mp reached).1
    have advanced : s.session.loops.advance frame.kind =
        .ok { s.session.loops with frames := moved frame (steps + 1) :: frames } := by
      unfold LoopStack.advance LoopStack.topOfKind
      simp only [h.frames, kind_moved, beq_self_eq_true, if_true]
      show (if (moved frame steps).iteration < (moved frame steps).items.length then _ else _) = _
      rw [iteration_moved, items_moved, if_pos inside, ← moved_moved, iteration_moved]
      cases steps <;> rfl
    have standing : Turn.Stands ⟨frame.items, steps⟩ (moved frame (steps + 1)) :=
      ⟨items_moved frame (steps + 1), rfl, inside⟩
    have around : List.Forall₂ Turn.Stands (⟨frame.items, steps⟩ :: enclosing)
      (moved frame (steps + 1) :: frames) := .cons standing stands
    have moves : s.session.nextLoop frame.kind item = .ok
        { s.session with
          loops := { s.session.loops with frames := moved frame (steps + 1) :: frames }
          currentItem := if frame.kind.bindsCurrentItem then item else s.session.currentItem } := by
      rw [Session.nextLoop, advanced]
      rfl
    unfold loopNext
    simp only [checkActive_of_clear clear, loopKind_ofName, pure_bind,
      Value.toData_ofData canonical]
    rw [run_changeLoops moves (Turn.metadataOf_eq around), run_standOn]
    refine .value trivial ⟨rfl, clear, stands, ?_⟩
    exact ⟨rfl,
      congrArg (fun current => if frame.kind.bindsCurrentItem then item else current) h.item,
      h.failure, h.room, h.host, h.cached⟩

/-- Closing a frame gives back the item that was there when it was opened, and yields the metadata
of the loops around. -/
theorem loopPop_mirrors {frame : LoopFrame} {steps : Nat} :
    Mirrors (lawMirror library levels frames)
      (Turning library levels frames enclosing frame steps site.scope)
      (loopPop site frame.kind.name) (Outline.standOn frame.kind frame.restore) (fun _ => True)
      (Determines (fun _ => Turn.value enclosing) fun _ s r => site.scope.Clear ∧
        List.Forall₂ Turn.Stands enclosing frames ∧
        Reflects (σ := σ) library levels frames s r) where
  loses := standOn_preserves frame.kind frame.restore
  follows := by
    rintro s r ⟨clear, stands, h⟩
    have popped : s.session.loops.pop frame.kind =
        .ok (moved frame steps, { s.session.loops with frames := frames }) := by
      unfold LoopStack.pop LoopStack.topOfKind
      simp only [h.frames, kind_moved, beq_self_eq_true, if_true]
      rfl
    have closes : s.session.popLoop frame.kind = .ok
        { s.session with
          loops := { s.session.loops with frames := frames }
          currentItem := if frame.kind.bindsCurrentItem then frame.restore
            else s.session.currentItem } := by
      rw [Session.popLoop, popped, ← restore_moved frame steps]
      rfl
    unfold loopPop
    simp only [checkActive_of_clear clear, loopKind_ofName, pure_bind]
    rw [run_changeLoops closes (Turn.metadataOf_eq stands), run_standOn]
    refine .value trivial ⟨rfl, clear, stands, ?_⟩
    exact ⟨rfl,
      congrArg (fun current => if frame.kind.bindsCurrentItem then frame.restore else current)
        h.item,
      h.failure, h.room, h.host, h.cached⟩

/-- A frame over some items on top, opened when the current item was the one that is current. -/
def Opened (library : Library) (levels : Nat) (frames : List LoopFrame) (enclosing : List Turn)
    (scope : Scope) (kind : LoopKind) (items : List Data) (s : RenderState σ)
    (r : Course σ) : Prop :=
  ∃ id, Turning library levels frames enclosing ⟨id, kind, items, none, r.currentItem⟩ 0 scope s r

theorem loopPush_mirrors (lawful : site.scope.Lawful enclosing)
    (stands : List.Forall₂ Turn.Stands enclosing frames) (kind : LoopKind) (values : List Value) :
    Mirrors (lawMirror library levels frames) (Reflects library levels frames)
      (render.callFunction renderer site .loopPush (values ++ [.ofString kind.name]))
      (Outline.itemsOf kind values) (fun items => ∀ item ∈ items, item.Canonical)
      (Determines (fun items => .ofData (.list items))
        (Opened (σ := σ) library levels frames enclosing site.scope kind)) := by
  have stops : ∀ complaint, Mirrors (lawMirror library levels frames)
      (Reflects library levels frames)
      (complain complaint : Evaluation (RenderState σ) Value)
      (complain complaint) (fun items => ∀ item ∈ items, item.Canonical)
      (Determines (fun items => .ofData (.list items))
        (Opened (σ := σ) library levels frames enclosing site.scope kind)) :=
    fun complaint => Mirrors.complain complaint fun _ _ h => h.strays
  cases values with
  | nil => exact stops _
  | cons source rest =>
      cases rest with
      | cons second rest => cases rest <;> exact stops _
      | nil =>
          change Mirrors _ _ (loopPush site source kind.name) _ _ _
          unfold loopPush Outline.itemsOf
          simp only [checkActive_of_clear lawful.toClear, loopKind_ofName, pure_bind]
          cases found : source.toData.items? with
          | none => exact stops _
          | some items =>
              have canonical : ∀ item ∈ items, item.Canonical := fun _ hmem =>
                Value.canonical_of_items? found hmem
              refine ⟨Preserves.pure canonical, fun s r h => .value canonical ⟨rfl, ?_⟩⟩
              refine ⟨s.session.loops.lastId + 1, lawful.toClear, stands, ?_⟩
              refine ⟨?_, h.item, h.failure, h.room, h.host, h.cached⟩
              simp only [Session.pushLoop, LoopStack.push, h.frames, h.item]
              rfl

/-! ### Pages -/

theorem itemsOf_preserves (kind : LoopKind) (values : List Value) :
    Preserves False (Lost (σ := σ)) (Outline.itemsOf kind values)
      fun items => ∀ item ∈ items, item.Canonical := by
  unfold Outline.itemsOf
  split
  · exact Preserves.complain _
  · split
    · next items found => exact Preserves.pure fun _ hmem => Value.canonical_of_items? found hmem
    · exact Preserves.complain _
  · exact Preserves.complain _

section

variable (enclosing render renderer inner?) in
theorem isFunction_lawful : (render.lawfulSurroundings inner? enclosing).isFunction =
    (render.surroundings renderer).isFunction :=
  rfl

variable (visible : ∀ name ∈ render.host.functions, ¬ Token.IsHidden name)
  (obeys : Obeys library levels renderer inner?) (defaults : render.PlainDefaults)

include obeys defaults in
variable (site) in
theorem eval_obeys (hsite : site.scope.Avoids OfLoops) {e : Expression} (he : e.Avoids OfLoops) :
    Mirrors (lawMirror library levels frames) (Inside library levels frames enclosing site.scope)
      (eval (render.surroundings renderer) site e)
      (eval (render.lawfulSurroundings inner? enclosing) site e)
      (Value.Avoids OfLoops) (Same fun _ => Inside library levels frames enclosing site.scope) :=
  eval_mirrors hsite (isFunction_lawful enclosing render renderer inner?)
    (calls_mirror obeys defaults) (fun _ _ => Inside.strays) e he

include visible obeys defaults in
variable (site) in
theorem open_mirrors (hsite : site.scope.Avoids OfLoops) (kind : LoopKind)
    {sources : List Expression} (avoid : Expression.AllAvoid OfLoops sources)
    {line kindLine : Nat} :
    Mirrors (lawMirror library levels frames) (Inside library levels frames enclosing site.scope)
      (eval (render.surroundings renderer) site (.call line PageFunction.loopPush.name
        (sources ++ [.constant kindLine (.ofString kind.name)])))
      (Outline.items (render.lawfulSurroundings inner? enclosing) site kind line sources)
      (fun items => ∀ item ∈ items, item.Canonical)
      (Determines (fun items => .ofData (.list items))
        (Opened library levels frames enclosing site.scope kind)) := by
  have calls : CallsMirror OfLoops (lawMirror library levels frames)
      (Inside library levels frames enclosing site.scope) (render.surroundings renderer)
      (render.lawfulSurroundings inner? enclosing) site :=
    calls_mirror obeys defaults
  have evaluates := evalAll_mirrors hsite (isFunction_lawful enclosing render renderer inner?) calls
    (fun _ _ => Inside.strays) sources avoid
  refine ⟨Preserves.bind evaluates.loses fun values _ =>
    Preserves.locate (itemsOf_preserves kind values), fun s r h => ?_⟩
  rw [eval_loopCall visible h.lawful.toClear (by simp), evalAll_append, evalAll_constant]
  simp only [bind_assoc, pure_bind]
  refine (Mirrors.bindSame evaluates fun values _ => Mirrors.locate ?_ _ _).follows s r h
  exact (loopPush_mirrors h.lawful h.stands kind values).weaken (fun _ _ h => h.reflects)
    fun _ _ _ _ _ h => h

include visible in
variable (enclosing) in
theorem step_mirrors {frame : LoopFrame} {steps : Nat} {item : Data}
    (reached : frame.items[steps]? = some item) (canonical : item.Canonical) {name : String}
    (bound : site.scope.find? name = some (.ofData item)) {line itemLine kindLine : Nat} :
    Mirrors (lawMirror library levels frames)
      (Turning library levels frames enclosing frame steps site.scope)
      (eval (render.surroundings renderer) site (.call line PageFunction.loopNext.name
        [.named itemLine name, .constant kindLine (.ofString frame.kind.name)]))
      (Outline.standOn frame.kind item) (fun _ => True)
      (Determines (fun _ => Turn.value (⟨frame.items, steps⟩ :: enclosing)) fun _ =>
        Turning library levels frames enclosing frame (steps + 1) site.scope) where
  loses := standOn_preserves frame.kind item
  follows := by
    intro s r h
    have args : evalAll (render.surroundings renderer) site
        [.named itemLine name, .constant kindLine (.ofString frame.kind.name)] =
        pure [.ofData item, .ofString frame.kind.name] := by
      rw [evalAll, evalAll_constant]
      simp only [eval, resolve?, bound, pure_bind, Option.getD_some]
    rw [eval_loopCall visible h.clear (by simp), args, pure_bind]
    rw [← locate_standOn]
    exact ((loopNext_mirrors reached canonical).locate site.template line).follows s r h

include visible in
variable (site) in
theorem close_mirrors {frame : LoopFrame} {steps : Nat} {line kindLine : Nat} :
    Mirrors (lawMirror library levels frames)
      (Turning library levels frames enclosing frame steps site.scope)
      (eval (render.surroundings renderer) site (.call line PageFunction.loopPop.name
        [.constant kindLine (.ofString frame.kind.name)]))
      (Outline.standOn frame.kind frame.restore) (fun _ => True)
      (Determines (fun _ => Turn.value enclosing) fun _ s r => site.scope.Clear ∧
        List.Forall₂ Turn.Stands enclosing frames ∧ Reflects library levels frames s r) where
  loses := standOn_preserves frame.kind frame.restore
  follows := by
    intro s r h
    rw [eval_loopCall visible h.clear (by simp), evalAll_constant, pure_bind, ← locate_standOn]
    exact (loopPop_mirrors.locate site.template line).follows s r h

end

/-- A page on its way that extends no other and holds no function of loops. -/
structure Simple (progress : Progress) : Prop where
  scope : progress.scope.Avoids OfLoops
  alone : progress.parent = none

theorem Simple.print {progress : Progress} (h : Simple progress) (s : String) :
    Simple (progress.print s) := by
  unfold Progress.print
  split
  · exact h
  · exact ⟨h.scope, h.alone⟩

theorem scope_print (progress : Progress) (s : String) :
    (progress.print s).scope = progress.scope := by
  unfold Progress.print
  split <;> rfl

theorem Simple.setLoop {progress : Progress} (h : Simple progress) (enclosing : List Turn) :
    Simple { progress with
      scope := progress.scope.set Turn.loopVariable (Turn.value enclosing) } := by
  have avoids : (Turn.value enclosing).Avoids OfLoops := by
    rw [Turn.value_eq]
    cases Turn.metadata? enclosing with
    | none => trivial
    | some metadata => exact Value.avoids_metadataValue metadata
  exact ⟨h.scope.set (Value.bindable_of_not_hidden avoids not_ofLoops_blade_loop), h.alone⟩

/-- Statements that do inside any loops what an outline does by the law. -/
def RunsBy (library : Library) (levels : Nat) (running : Running (RenderState σ))
    (around : List Turn → Surroundings (Course σ)) (outline : Outline)
    (body : List Statement) : Prop :=
  ∀ (frames : List LoopFrame) (enclosing : List Turn) (progress : Progress), Simple progress →
    Mirrors (lawMirror library levels frames)
      (Inside library levels frames enclosing progress.scope)
      (execAll running body progress)
      (outline.run around running.template enclosing progress) Simple
      (Same fun stop => Inside library levels frames enclosing stop.scope)

section

variable {running : Running (RenderState σ)}
  (visible : ∀ name ∈ render.host.functions, ¬ Token.IsHidden name)
  (hsurroundings : running.surroundings = render.surroundings renderer)
  {outline : Outline} {body : List Statement}
  {around : List Turn → Surroundings (Course σ)}
  (hbody : RunsBy library levels running around outline body)

include visible hsurroundings hbody

theorem turn_mirrors {progress : Progress} (simple : Simple progress) {frame : LoopFrame}
    {steps : Nat} {item : Data} (reached : frame.items[steps]? = some item)
    (canonical : item.Canonical) {name : String} (shown : ¬ Token.IsHidden name)
    {length depth : Nat} {previous next : Value} (hprevious : previous.Avoids OfLoops)
    (hnext : next.Avoids OfLoops) (line itemLine kindLine : Nat) :
    Mirrors (lawMirror library levels frames)
      (Turning library levels frames enclosing frame steps progress.scope)
      (execAll running
        (.set "blade_loop" (.call line PageFunction.loopNext.name
          [.named itemLine name, .constant kindLine (.ofString frame.kind.name)]) :: body)
        { progress with
          scope := progress.scope.enter
            (Outline.turnFrame name item steps length depth previous next) })
      (Outline.turn frame.kind item (⟨frame.items, steps⟩ :: enclosing)
        (Outline.turnFrame name item steps length depth previous next)
        (outline.run around running.template) progress)
      Simple (Same fun stop => Turning library levels frames enclosing frame
        (steps + 1) stop.scope.leave) := by
  have entered : Simple { progress with
      scope := progress.scope.enter
        (Outline.turnFrame name item steps length depth previous next) } := by
    refine ⟨simple.scope.enter (avoids_forFrame (fun bound value hmem => ?_) hprevious hnext),
      simple.alone⟩
    cases List.mem_singleton.mp hmem
    exact Value.bindable_ofData _ _
  have inside : steps < frame.items.length := (List.getElem?_eq_some_iff.mp reached).1
  rw [execAll, exec, bind_assoc, hsurroundings, Outline.turn]
  refine Mirrors.bindDetermined ((step_mirrors enclosing visible reached canonical
    (find?_enter_single _ _ _ _)).starting ?_) fun _ _ => ?_
  · rintro s r ⟨clear, stands, h⟩
    exact ⟨clear.enter shown _, stands, h⟩
  rw [pure_bind]
  have runs := hbody (moved frame (steps + 1) :: frames) (⟨frame.items, steps⟩ :: enclosing) _
    (entered.setLoop (⟨frame.items, steps⟩ :: enclosing))
  refine (runs.weaken ?_ ?_).stopping rfl rfl ?_
  · rintro s r ⟨clear, stands, h⟩
    exact ⟨clear.lawful_set _, .cons ⟨items_moved frame (steps + 1), rfl, inside⟩ stands, h⟩
  · rintro stop _ s r - ⟨rfl, lawful, stands, h⟩
    exact ⟨rfl, lawful.toClear.leave, (List.forall₂_cons.mp stands).2, h⟩
  · rintro s r ⟨opened, h⟩
    exact ⟨opened ++ [_], by rwa [List.append_assoc]⟩

theorem turns_mirror {frame : LoopFrame} (canonical : ∀ item ∈ frame.items, item.Canonical)
    {name : String} (shown : ¬ Token.IsHidden name) {place line itemLine kindLine depth : Nat}
    (rest : List Data) {index : Nat} (left : frame.items.drop index = rest) {previous : Value}
    (hprevious : previous.Avoids OfLoops) {progress : Progress} (simple : Simple progress) :
    Mirrors (lawMirror library levels frames)
      (Turning library levels frames enclosing frame index progress.scope)
      (forItems (Value.ofItems frame.items).length depth
        (fun element => locate running.template place (bindElement (some name) element))
        (execAll running
          (.set "blade_loop" (.call line PageFunction.loopNext.name
            [.named itemLine name, .constant kindLine (.ofString frame.kind.name)]) :: body))
        index previous (Value.ofItems rest) progress)
      (Outline.turns frame.kind name frame.items enclosing depth
        (outline.run around running.template)
        index previous rest progress)
      Simple
      (Same fun stop s r => ∃ steps, Turning library levels frames enclosing frame steps
        stop.scope s r) := by
  induction rest generalizing index previous progress with
  | nil => exact Mirrors.pure simple fun _ _ h => ⟨rfl, index, h⟩
  | cons item rest ih =>
      have reached : frame.items[index]? = some item := by
        rw [← Nat.add_zero index, ← List.getElem?_drop, left]
        rfl
      have behind : frame.items.drop (index + 1) = rest := by
        rw [← List.tail_drop, left]
        rfl
      have next : (Value.ofItems rest).head?.getD .undefined =
          (rest.head?.map Value.ofData).getD .undefined := by
        cases rest <;> rfl
      have hnext : ((rest.head?.map Value.ofData).getD .undefined).Avoids OfLoops := by
        cases rest with
        | nil => trivial
        | cons second _ => exact Value.avoids_ofData second
      have after : ∀ stop, Simple stop → Simple { stop with scope := stop.scope.leave } :=
        fun stop h => ⟨h.scope.leave, h.alone⟩
      rw [Value.ofItems, forItems, Outline.turns, next, length_ofItems]
      refine Mirrors.bindSame (turn_mirrors visible hsurroundings hbody simple reached
        (canonical item (List.mem_of_getElem? reached)) shown hprevious hnext line
          itemLine kindLine)
        fun stop hstop => ?_
      rw [← length_ofItems]
      exact ih behind (Value.avoids_ofData item) (after stop hstop)

variable (frames enclosing) in
/-- The turns of a loop whose frame is open, and what stands behind the loop. -/
theorem frame_mirrors {rest : List Statement} {outlineRest : Outline}
    (hrest : RunsBy library levels running around outlineRest rest) (frame : LoopFrame)
    (canonical : ∀ item ∈ frame.items, item.Canonical) {name : String}
    (shown : ¬ Token.IsHidden name)
    (place stepLine stepItem stepKind popLine popKind depth : Nat) {progress : Progress}
    (simple : Simple progress) :
    Mirrors (lawMirror library levels frames)
      (Turning library levels frames enclosing frame 0 progress.scope)
      (do
        let stop ← forItems (Value.ofItems frame.items).length depth
          (fun element => locate running.template place (bindElement (some name) element))
          (execAll running
            (.set "blade_loop" (.call stepLine PageFunction.loopNext.name
              [.named stepItem name, .constant stepKind (.ofString frame.kind.name)]) :: body))
          0 .undefined (Value.ofItems frame.items) progress
        execAll running
          (.set "blade_loop" (.call popLine PageFunction.loopPop.name
            [.constant popKind (.ofString frame.kind.name)]) :: rest) stop)
      (do
        let stop ← Outline.turns frame.kind name frame.items enclosing depth
          (outline.run around running.template) 0 .undefined frame.items progress
        Outline.standOn frame.kind frame.restore
        outlineRest.run around running.template enclosing
          { stop with scope := stop.scope.set Turn.loopVariable (Turn.value enclosing) })
      Simple (Same fun stop => Inside library levels frames enclosing stop.scope) := by
  refine Mirrors.bindSame (turns_mirror visible hsurroundings hbody canonical shown frame.items rfl
    (show Value.Avoids OfLoops .undefined from trivial) simple) fun stop hstop => ?_
  rw [execAll, exec, bind_assoc, hsurroundings]
  refine Mirrors.bindDetermined (Mirrors.choose fun steps =>
    close_mirrors (running.site stop) visible) fun _ _ => ?_
  rw [pure_bind]
  refine (hrest frames enclosing _ (hstop.setLoop enclosing)).starting ?_
  rintro s r ⟨clear, stands, h⟩
  exact ⟨clear.lawful_set enclosing, stands, h⟩

end

theorem visits_mirrors {before : RenderState σ → Course σ → Prop}
    (stops : ∀ s r, before s r → Strays library levels frames s r) (scope : Scope)
    (elements : List Value) (template : String) (line : Nat) :
    Mirrors (lawMirror library levels frames) before
      (locate template line (do
        checkDepth scope
        return elements))
      (locate template line (checkDepth scope)) (fun _ => True)
      (Determines (fun _ => elements) fun _ => before) := by
  refine Mirrors.locate ?_ _ _
  unfold checkDepth
  split
  · exact Mirrors.complain _ stops
  · exact Mirrors.pure trivial fun _ _ h => ⟨rfl, h⟩

section

variable {running : Running (RenderState σ)}
  (visible : ∀ name ∈ render.host.functions, ¬ Token.IsHidden name)
  (obeys : Obeys library levels renderer inner?) (defaults : render.PlainDefaults)
  (hsurroundings : running.surroundings = render.surroundings renderer)

include visible obeys defaults hsurroundings

theorem loop_runsBy (kind : LoopKind) {name : String} (shown : ¬ Token.IsHidden name)
    {sources : List Expression} (avoid : Expression.AllAvoid OfLoops sources)
    {pushLine pushKind stepLine stepItem stepKind popLine popKind : Nat}
    {outlineBody outline : Outline} {body rest : List Statement}
    (hbody : RunsBy library levels running (render.lawfulSurroundings inner?) outlineBody body)
    (hrest : RunsBy library levels running (render.lawfulSurroundings inner?) outline rest) :
    RunsBy library levels running (render.lawfulSurroundings inner?)
      (.loop kind pushLine name sources outlineBody outline)
      (.forEach (some name)
          (.call pushLine PageFunction.loopPush.name
            (sources ++ [.constant pushKind (.ofString kind.name)]))
          (.set "blade_loop"
              (.call stepLine PageFunction.loopNext.name
                [.named stepItem name, .constant stepKind (.ofString kind.name)]) ::
            body)
          [] ::
        .set "blade_loop"
            (.call popLine PageFunction.loopPop.name
              [.constant popKind (.ofString kind.name)]) ::
          rest) := by
  intro frames enclosing progress simple
  rw [Outline.run, execAll, exec, bind_assoc, hsurroundings]
  refine Mirrors.bindDetermined
    (open_mirrors (running.site progress) visible obeys defaults simple.scope
    kind avoid) fun items canonical => ?_
  refine Mirrors.observe fun r₀ => ?_
  have goes := fun id => frame_mirrors frames enclosing visible hsurroundings hbody hrest
    ⟨id, kind, items, none, r₀.currentItem⟩ canonical shown pushLine stepLine stepItem
    stepKind popLine popKind progress.scope.loopDepth simple
  have opened : ∀ s r, Opened library levels frames enclosing progress.scope kind items s r ∧
      r = r₀ →
      ∃ id, Turning library levels frames enclosing ⟨id, kind, items, none, r₀.currentItem⟩ 0
        progress.scope s r := by
    rintro s r ⟨⟨id, h⟩, rfl⟩
    exact ⟨id, h⟩
  have stops : ∀ s r, Opened library levels frames enclosing progress.scope kind items s r ∧
      r = r₀ →
      Strays library levels frames s r := by
    rintro s r ⟨⟨id, h⟩, rfl⟩
    exact h.strays
  have alone : ∀ stop : Progress, (if (Value.ofItems items).isEmpty then execAll running [] stop
      else pure stop : Evaluation (RenderState σ) Progress) = pure stop := by
    intro stop
    rw [execAll, ite_self]
  rw [bind_assoc]
  refine Mirrors.bindDetermined (visits_mirrors stops progress.scope (Value.ofItems items)
    running.template pushLine) fun _ _ => ?_
  simp only [alone, bind_pure]
  exact (Mirrors.choose goes).starting opened

variable (levels) in
theorem runsBy_of_codes {outline : Outline} {statements : List Statement}
    (codes : Outline.Codes OfLoops outline statements) :
    RunsBy library levels running (render.lawfulSurroundings inner?) outline statements := by
  have evaluates : ∀ {frames enclosing} {e : Expression} (_ : e.Avoids OfLoops)
      {progress : Progress}
      (_ : Simple progress), Mirrors (lawMirror library levels frames)
        (Inside library levels frames enclosing progress.scope)
        (eval running.surroundings (running.site progress) e)
        (eval (render.lawfulSurroundings inner? enclosing) (running.site progress) e)
        (Value.Avoids OfLoops)
        (Same fun _ => Inside library levels frames enclosing progress.scope) := by
    intro frames enclosing e avoids progress simple
    rw [hsurroundings]
    exact eval_obeys (running.site progress) obeys defaults simple.scope avoids
  induction codes with
  | done => exact fun _ _ _ simple => Mirrors.pure simple fun _ _ h => ⟨rfl, h⟩
  | text s _ ih =>
      intro frames enclosing progress simple
      rw [Outline.run, execAll, exec, pure_bind]
      exact (ih frames enclosing _ (simple.print s)).starting fun _ _ h => by rwa [scope_print]
  | echo avoids _ ih =>
      intro frames enclosing progress simple
      rw [Outline.run, execAll, exec, bind_assoc]
      refine Mirrors.bindSame (evaluates avoids simple) fun value _ => ?_
      rw [pure_bind]
      exact (ih frames enclosing _ (simple.print _)).starting fun _ _ h => by rwa [scope_print]
  | @conditional _ outlineBody outlineOther _ body otherwise _ avoids _ _ _ ihBody ihOther ihRest =>
      intro frames enclosing progress simple
      rw [Outline.run, execAll, exec, bind_assoc]
      refine Mirrors.bindSame (evaluates avoids simple) fun value _ => ?_
      have branch : Mirrors (lawMirror library levels frames)
          (Inside library levels frames enclosing progress.scope)
          (if value.isTrue then execAll running body progress
            else execAll running otherwise progress)
          ((if value.isTrue then
              outlineBody.run (render.lawfulSurroundings inner?) running.template
            else outlineOther.run (render.lawfulSurroundings inner?) running.template)
              enclosing progress)
          Simple (Same fun stop => Inside library levels frames enclosing stop.scope) := by
        split
        · exact ihBody frames enclosing progress simple
        · exact ihOther frames enclosing progress simple
      exact Mirrors.bindSame branch fun stop hstop => ihRest frames enclosing stop hstop
  | loop kind shown avoids _ _ ihBody ihRest =>
      exact loop_runsBy visible obeys defaults hsurroundings kind shown avoids ihBody ihRest

end

end ThemeTemplates.Render
