import ThemeTemplates.Proofs.Loop.Frames
import ThemeTemplates.Proofs.Page.Emission
import ThemeTemplates.Proofs.Page.Outline
import ThemeTemplates.Proofs.Render.Discipline
import ThemeTemplates.Proofs.Render.Origin
import ThemeTemplates.Proofs.Render.Pairing

/-!
# A loop runs over the items of its frame

Site data come back unchanged from the page language, so the list that a loop directive runs over is
the list in the frame it opens, item by item. Where the functions of loops are left to the
directives, the frame stands in each turn on the item of the turn. Code that calls them by hand can
make another frame stand there.
-/

namespace ThemeTemplates

theorem Value.map_toData_ofItems {items : List Data} (canonical : ∀ item ∈ items, item.Canonical) :
    (Value.ofItems items).map Value.toData = items := by
  induction items with
  | nil => rfl
  | cons item rest ih =>
      obtain ⟨first, others⟩ := List.forall_mem_cons.mp canonical
      rw [Value.ofItems, List.map_cons, Value.toData_ofData first, ih others]

theorem Evaluation.Meets.of_ok {σ α : Type} {evaluation : Evaluation σ α} {value : α} {s t : σ}
    (ran : evaluation.run.run s = (.ok value, t)) {before : σ → Prop} {after : α → σ → Prop}
    {stopped : Fault → σ → Prop} (meets : evaluation.Meets before after stopped)
    (found : before s) :
    after value t := by
  have ended := meets s found
  rwa [ran] at ended

/-! ### The functions of loops -/

namespace Render

open Evaluation

variable {σ : Type}

theorem loopPush_of_scalar (site : Site) {source : Value} (scalar : source.toData.items? = none)
    (kindName : String) (s : RenderState σ) :
    ∃ fault, (loopPush site source kindName).run.run s = (.error fault, s) := by
  unfold loopPush checkActive
  split
  · unfold loopKind
    split
    · next kind _ =>
        refine ⟨Fault.ofComplaint (.notAList kind), ?_⟩
        rw [run_bind]
        simp only [scalar]
        rfl
    · exact ⟨_, rfl⟩
  · exact ⟨_, rfl⟩

theorem loopPush_of_items {site : Site} (active : Active site) {source : Value} {items : List Data}
    (visited : source.toData.items? = some items) (kind : LoopKind) (s : RenderState σ) :
    (loopPush site source kind.name).run.run s =
      (.ok (.ofData (.list items)), { s with session := s.session.pushLoop kind items }) := by
  unfold loopPush loopKind
  rw [checkActive_of_active active, LoopKind.ofName?_name]
  simp only [pure_bind, visited]
  rfl

theorem run_loopValue_ok (s : RenderState σ) :
    ∃ value, (loopValue : Evaluation (RenderState σ) Value).run.run s = (.ok value, s) := by
  obtain ⟨value, read, -⟩ : ∃ value, (loopValue : Evaluation (RenderState σ) Value).run.run s =
      (.ok value, s) ∧ value.Avoids OfLoops := loopValue_avoids
  exact ⟨value, read⟩

/-- A step that succeeds moves the innermost frame on and hands over the item it is given. -/
theorem loopNext_eq_ok {site : Site} {item value : Value} {kind : LoopKind} {s t : RenderState σ}
    (stepped : (loopNext site item kind.name).run.run s = (.ok value, t)) :
    ∃ frame outer, s.session.loops.frames = frame :: outer ∧ frame.kind = kind ∧
      t.session.loops.frames = frame.step :: outer ∧
      t.session.currentItem = if kind.bindsCurrentItem then item.toData
        else s.session.currentItem := by
  unfold loopNext loopKind checkActive at stepped
  split at stepped
  · rw [LoopKind.ofName?_name, pure_bind, pure_bind, changeLoops, run_get_bind,
      Session.nextLoop] at stepped
    cases advanced : s.session.loops.advance kind with
    | error error =>
        rw [advanced] at stepped
        cases stepped
    | ok loops =>
        obtain ⟨frame, outer, shape, same, -, rfl⟩ := LoopStack.advance_eq_ok advanced
        rw [advanced] at stepped
        simp only [bind, Except.bind, pure, Except.pure] at stepped
        obtain ⟨read, reads⟩ := run_loopValue_ok ({ s with session := { s.session with
          loops := { s.session.loops with frames := frame.step :: outer }
          currentItem := if kind.bindsCurrentItem then item.toData else s.session.currentItem } } :
            RenderState σ)
        cases stepped.symm.trans reads
        exact ⟨frame, outer, shape, same, rfl, rfl⟩
  · cases stepped

variable {render : Render σ} {renderer : Renderer σ} {site : Site}

/-- A call of a function of loops by its own name that succeeds has reached the function. -/
theorem run_loopCall_ok (functions : ∀ name ∈ render.host.functions, ¬ OfLoops name)
    (avoids : site.scope.Avoids OfLoops) {function : PageFunction}
    (hmem : function ∈ [PageFunction.loopPush, .loopNext, .loopPop]) {line : Nat}
    {args : List Expression} {values : List Value}
    (evaluated : evalAll (render.surroundings renderer) site args = pure values) {value : Value}
    {s t : RenderState σ}
    (called : (eval (render.surroundings renderer) site (.call line function.name args)).run.run s =
      (.ok value, t)) :
    (render.callFunction renderer site function values).run.run s = (.ok value, t) := by
  have isLoops : OfLoops function.name := ⟨function, hmem, rfl⟩
  have unknown : render.host.functions.contains function.name = false := by
    simpa using fun known => functions function.name known isLoops
  simp only [eval, evaluated, pure_bind, ownCalls_contains_name, Bool.false_eq_true,
    if_false] at called
  rw [locate, run_tryCatch] at called
  cases shadowed : site.scope.find? function.name with
  | some found =>
      have noFunction := (avoids.find? shadowed).notFunction isLoops
      simp only [resolve?, shadowed] at called
      cases found with
      | function name => exact absurd rfl (noFunction name)
      | _ => cases called
  | none =>
      have reached : (render.surroundings renderer).call site function.name values =
          render.callFunction renderer site function values := by
        simp only [surroundings, unknown, PageFunction.ofName?_name, Bool.false_eq_true, if_false]
      simp only [resolve?, shadowed, isFunction_name, if_true, applyValue, reached] at called
      cases ran : (render.callFunction renderer site function values).run.run s with
      | mk result u =>
          rw [ran] at called
          cases result with
          | ok found => exact called
          | error fault => cases called

end Render

/-! ### Turns -/

/-- The code of a loop directive: a `for` over the items of a new frame whose body first moves the
frame on. -/
structure LoopCode where
  kind : LoopKind
  name : String
  opened : String
  sources : List Expression
  body : List Statement
  pushLine : Nat
  pushKind : Nat
  stepLine : Nat
  stepItem : Nat
  stepKind : Nat

namespace LoopCode

open Evaluation Render

variable {σ : Type} (loop : LoopCode)

def opens : Expression :=
  .call loop.pushLine PageFunction.loopPush.name
    (loop.sources ++ [.constant loop.pushKind (.ofString loop.kind.name)])

def stepArguments : List Expression :=
  [.named loop.stepItem loop.name, .constant loop.stepKind (.ofString loop.kind.name)]

def step : Expression :=
  .call loop.stepLine PageFunction.loopNext.name loop.stepArguments

def turn : List Statement :=
  .set loop.opened loop.step :: loop.body

def statement : Statement :=
  .forEach (some loop.name) loop.opens loop.turn []

/-- The code names the functions of loops in the calls of its own only. -/
structure Tidy (hidden : String → Prop) : Prop where
  opened : ¬ hidden loop.opened
  sources : Expression.AllAvoid hidden loop.sources
  body : ThemeTemplates.Tidy hidden loop.body

theorem of_codes {hidden : String → Prop} {kind : LoopKind} {line : Nat} {name : String}
    {sources : List Expression} {outlineBody outline : Outline} {statements : List Statement}
    (visible : ¬ hidden "blade_loop")
    (codes : Outline.Codes hidden (.loop kind line name sources outlineBody outline) statements) :
    ∃ (loop : LoopCode) (closes : Expression) (rest : List Statement),
      statements = loop.statement :: .set "blade_loop" closes :: rest ∧ loop.Tidy hidden ∧
      (loop.kind, loop.name, loop.sources) = (kind, name, sources) ∧
      Outline.Codes hidden outlineBody loop.body ∧ Outline.Codes hidden outline rest := by
  cases codes with
  | @loop _ _ _ _ pushKind stepLine stepItem stepKind _ _ _ _ body rest _ avoids codesBody
      codesRest =>
      exact ⟨⟨kind, name, "blade_loop", sources, body, line, pushKind, stepLine, stepItem,
        stepKind⟩, _, rest, rfl, ⟨visible, avoids, codesBody.tidy visible⟩, rfl,
        codesBody, codesRest⟩

def enter (length depth index : Nat) (previous element : Value) (rest : List Value)
    (progress : Progress) : Progress :=
  { progress with
    scope := progress.scope.enter
      { locals := [(loop.name, element)]
        loop := some (.forState index length depth previous (rest.head?.getD .undefined)) } }

/-- Where the turns of a `for` begin, from one of them on. A turn that is stopped is the last
one. -/
def turnsFrom (running : Running (RenderState σ)) (length depth : Nat) :
    Nat → Value → List Value → Progress → RenderState σ → List (Progress × RenderState σ)
  | _, _, [], _, _ => []
  | index, previous, element :: rest, progress, s =>
    let begun := loop.enter length depth index previous element rest progress
    (begun, s) ::
      match (execAll running loop.turn begun).run.run s with
      | (.ok stop, t) =>
        turnsFrom running length depth (index + 1) element rest
          { stop with scope := stop.scope.leave } t
      | (.error _, _) => []

def turns (running : Running (RenderState σ)) (start : Progress) (elements : List Value)
    (s : RenderState σ) : List (Progress × RenderState σ) :=
  loop.turnsFrom running elements.length start.scope.loopDepth 0 .undefined elements start s

variable {loop} {running : Running (RenderState σ)} {length depth : Nat}

abbrev forRest (loop : LoopCode) (running : Running (RenderState σ)) (length depth : Nat) :
    Nat → Value → List Value → Progress → Evaluation (RenderState σ) Progress :=
  forItems length depth
    (fun element => locate running.template loop.pushLine (bindElement (some loop.name) element))
    (execAll running loop.turn)

theorem forRest_cons (index : Nat) (previous element : Value) (rest : List Value)
    (progress : Progress) :
    loop.forRest running length depth index previous (element :: rest) progress = (do
      let stop ← execAll running loop.turn
        (loop.enter length depth index previous element rest progress)
      loop.forRest running length depth (index + 1) element rest
        { stop with scope := stop.scope.leave }) := by
  rfl

/-- From each of its turns on the `for` goes on with the turn and those behind it. -/
theorem run_forRest_of_turn {index : Nat} {previous : Value} {rest : List Value}
    {progress : Progress} {s t : RenderState σ} {k : Nat} {begun : Progress}
    (turn : (loop.turnsFrom running length depth index previous rest progress s)[k]? =
      some (begun, t)) :
    ∃ element, rest[k]? = some element ∧ begun.scope.find? loop.name = some element ∧
      (loop.forRest running length depth index previous rest progress).run.run s =
        (do
          let stop ← execAll running loop.turn begun
          loop.forRest running length depth (index + k + 1) element (rest.drop (k + 1))
            { stop with scope := stop.scope.leave }).run.run t := by
  induction rest generalizing index previous progress s k with
  | nil => cases turn
  | cons element rest ih =>
      rw [forRest_cons]
      cases k with
      | zero =>
          cases turn
          exact ⟨element, rfl, find?_enter_single _ _ _ _, rfl⟩
      | succ k =>
          simp only [turnsFrom, List.getElem?_cons_succ] at turn
          rw [run_bind]
          split at turn
          · next stop u ran =>
              obtain ⟨found, here, bound, goesOn⟩ := ih turn
              refine ⟨found, here, bound, ?_⟩
              rw [ran, Nat.add_right_comm index 1 k] at *
              exact goesOn
          · cases turn

/-- From each of its turns on a loop goes on with the turn and those behind it. -/
theorem run_statement_of_turn {start begun : Progress} {value : Value} {elements : List Value}
    {s₀ s t : RenderState σ} {k : Nat}
    (opened : (eval running.surroundings (running.site start) loop.opens).run.run s₀ =
      (.ok value, s))
    (visits : value.elements? = some elements) (shallow : start.scope.tooDeep = false)
    (turn : (loop.turns running start elements s)[k]? = some (begun, t)) :
    ∃ element, elements[k]? = some element ∧ begun.scope.find? loop.name = some element ∧
      (exec running loop.statement start).run.run s₀ =
        (do
          let stop ← execAll running loop.turn begun
          loop.forRest running elements.length start.scope.loopDepth (k + 1) element
            (elements.drop (k + 1)) { stop with scope := stop.scope.leave }).run.run t := by
  obtain ⟨element, here, bound, goesOn⟩ := run_forRest_of_turn turn
  refine ⟨element, here, bound, ?_⟩
  rw [Nat.zero_add] at goesOn
  rw [← goesOn, statement, exec, run_bind, opened]
  have checked : (checkDepth start.scope : Evaluation (RenderState σ) Unit) = pure () := by
    rw [checkDepth, shallow]
    rfl
  have ends : ∀ stop : Progress, (if elements.isEmpty then execAll running [] stop else pure stop :
      Evaluation (RenderState σ) Progress) = pure stop := fun stop => by
    rw [execAll, ite_self]
  have placed : locate running.template loop.opens.line
      (pure elements : Evaluation (RenderState σ) _) =
      pure elements := rfl
  simp only [visits, checked, pure_bind, placed, ends, bind_pure]
  rfl

section

variable {w : Watch σ} {hidden : String → Prop} {frames : List LoopFrame} {item : Data}
  {render : Render σ} {renderer : Renderer σ} (hw : Watched w hidden render)
  (hsurroundings : running.surroundings = render.surroundings renderer)
  (hbody : ∀ frames item (progress : Progress), progress.Tidy hidden →
    Settles w hidden frames item (execAll running loop.body progress) (Progress.Tidy hidden))

theorem tidy_enter {progress : Progress} (hprogress : progress.Tidy hidden) {previous : Value}
    (hprevious : previous.Avoids hidden) (loop : LoopCode) (length depth index : Nat)
    (reached : Data) (more : List Data) :
    (loop.enter length depth index previous (.ofData reached) (Value.ofItems more) progress).Tidy
      hidden := by
  have hnext : ((Value.ofItems more).head?.getD .undefined).Avoids hidden := by
    cases more with
    | nil => trivial
    | cons next _ => exact Value.avoids_ofData next
  have hframe : Frame.Avoids hidden
      { locals := [(loop.name, .ofData reached)]
        loop := some (.forState index length depth previous
          ((Value.ofItems more).head?.getD .undefined)) } := by
    refine avoids_forFrame (fun bound value hmem => ?_) hprevious hnext
    obtain ⟨rfl, rfl⟩ := Prod.mk.inj (List.mem_singleton.mp hmem)
    exact Value.bindable_ofData _ _
  exact ⟨hprogress.scope.enter hframe, hprogress.blocks, hprogress.parent⟩

include hw hsurroundings hbody

theorem turn_moves (visibleOpened : ¬ hidden loop.opened) {frame : LoopFrame}
    (kind : frame.kind = loop.kind) {progress : Progress} (hprogress : progress.Tidy hidden)
    {steps : Nat} {next : Data} (reached : frame.items[steps]? = some next)
    (bound : progress.scope.find? loop.name = some (.ofData next)) {s t : RenderState σ}
    (hs : Steady w hidden (moved frame steps :: frames) (itemInside [moved frame steps] item) s)
    {stop : Progress} (ran : (execAll running loop.turn progress).run.run s = (.ok stop, t)) :
    stop.Tidy hidden ∧
      Steady w hidden (moved frame (steps + 1) :: frames)
        (itemInside [moved frame (steps + 1)] item)
        t := by
  rw [turn, step, stepArguments, ← kind] at ran
  exact Meets.of_ok ran (turn_meets hw hsurroundings hprogress visibleOpened reached bound hbody) hs

/-- In tidy code each turn begins with the frame of the loop innermost, as many steps on as there
were turns before. -/
theorem steady_of_turn (visibleOpened : ¬ hidden loop.opened) {frame : LoopFrame}
    (kind : frame.kind = loop.kind) {remaining : List Data} {index : Nat}
    (left : frame.items.drop index = remaining) {previous : Value}
    (hprevious : previous.Avoids hidden) {progress : Progress} (hprogress : progress.Tidy hidden)
    {s : RenderState σ} (hs :
      Steady w hidden (moved frame index :: frames) (itemInside [moved frame index] item) s)
    {k : Nat} {begun : Progress} {t : RenderState σ}
    (turn : (loop.turnsFrom running length depth index previous (Value.ofItems remaining) progress
      s)[k]? = some (begun, t)) :
    begun.Tidy hidden ∧
      Steady w hidden (moved frame (index + k) :: frames)
        (itemInside [moved frame (index + k)] item)
        t := by
  induction remaining generalizing index previous progress s k with
  | nil => cases turn
  | cons reached more ih =>
      have hbegun := tidy_enter hprogress hprevious loop length depth index reached more
      cases k with
      | zero =>
          cases turn
          exact ⟨hbegun, hs⟩
      | succ k =>
          have here : frame.items[index]? = some reached := by
            rw [← Nat.add_zero index, ← List.getElem?_drop, left]
            rfl
          have behind : frame.items.drop (index + 1) = more := by
            rw [← List.tail_drop, left, List.tail_cons]
          simp only [Value.ofItems, turnsFrom, List.getElem?_cons_succ] at turn
          split at turn
          · next stop u ran =>
              obtain ⟨tidy, hu⟩ := turn_moves hw hsurroundings hbody visibleOpened kind hbegun here
                (find?_enter_single _ _ _ _) hs ran
              have ended : Progress.Tidy hidden { stop with scope := stop.scope.leave } :=
                ⟨tidy.scope.leave, tidy.blocks, tidy.parent⟩
              rw [← Nat.add_assoc, Nat.add_right_comm]
              exact ih behind (Value.avoids_ofData reached) ended hu turn
          · cases turn

end

theorem evalAll_stepArguments (surroundings : Surroundings (RenderState σ)) {site : Site}
    {element : Value} (bound : site.scope.find? loop.name = some element) :
    evalAll surroundings site loop.stepArguments = pure [element, .ofString loop.kind.name] := by
  unfold stepArguments evalAll
  rw [evalAll_constant]
  simp only [eval, resolve?, bound, pure_bind, Option.getD_some]

/-- A step from a state in which the frame of the loop is innermost puts the frame on its next
item. -/
theorem stands_of_step {render : Render σ} {renderer : Renderer σ} {site : Site}
    (functions : ∀ name ∈ render.host.functions, ¬ OfLoops name)
    (avoids : site.scope.Avoids OfLoops) {item : Data}
    (bound : site.scope.find? loop.name = some (.ofData item)) (canonical : item.Canonical)
    {frame : LoopFrame} {outer : List LoopFrame} {steps : Nat} {s t : RenderState σ}
    (innermost : s.session.loops.frames = moved frame steps :: outer) {answer : Value}
    (stepped : (eval (render.surroundings renderer) site loop.step).run.run s = (.ok answer, t)) :
    t.session.loops.frames = moved frame (steps + 1) :: outer ∧
      (loop.kind.bindsCurrentItem = true → t.session.currentItem = item) := by
  have called : (loopNext site (.ofData item) loop.kind.name).run.run s = (.ok answer, t) :=
    run_loopCall_ok functions avoids (by simp) (evalAll_stepArguments _ bound) stepped
  obtain ⟨top, rest, shape, -, frames, current⟩ := loopNext_eq_ok called
  obtain ⟨rfl, rfl⟩ := List.cons.inj (innermost.symm.trans shape)
  refine ⟨frames.trans (congrArg (· :: outer) (moved_moved frame steps)), fun binds => ?_⟩
  rw [current, if_pos binds, Value.toData_ofData canonical]

end LoopCode

namespace Render

open Evaluation

variable {σ : Type}

/-- Nothing is asked of failures and of the host, and the current item is not followed. -/
def plainWatch (σ : Type) : Watch σ where
  strict := False
  tracked := False
  host := fun _ => True

theorem watched_plainWatch {render : Render σ}
    (functions : ∀ name ∈ render.host.functions, ¬ OfLoops name)
    (pages : ∀ template page, render.library.compile template = .ok page → Tidy OfLoops page.body) :
    Watched (plainWatch σ) OfLoops render where
  hidesLoops := fun function hmem => ⟨function, hmem, rfl⟩
  hidesItem := fun followed => followed.elim
  functions := functions
  host := Host.keeps_true _ _
  pages := pages
  faults := fun _ _ _ _ _ asked => asked.elim

/-- The list that a loop runs over is the list in its frame. Data come back from the page language
as they went in. What has no items opens no loop, and what has some yields a list of just the items
in the new frame, in their order.

The turns of a loop directive take the elements of the list one by one: in turn `k` its step is
called for the element `k`, and a step that succeeds makes the item that it is given the current one
in a `@loop` and in no other loop. Where the functions of loops are left to the directives, the
frame of the loop is the innermost one in every turn, and the step of turn `k` puts it on the item
`k`.

The loops of a page that codes an outline are of the form that is spoken of, and in a library of
plain templates all pages are such pages, which leave the functions of loops to the directives. -/
theorem loop_runs_over_frame_items (render : Render σ) :
    (∀ data : Data, data.Canonical → (Value.ofData data).toData = data) ∧
    (∀ (site : Site) (source : Value) (kindName : String) (s : RenderState σ),
      source.toData.items? = none →
        ∃ fault, (loopPush site source kindName).run.run s = (.error fault, s)) ∧
    (∀ (site : Site) (source : Value) (kind : LoopKind) (items : List Data) (s : RenderState σ),
      Active site → source.toData.items? = some items →
        ∃ list elements frame, (loopPush site source kind.name).run.run s =
            (.ok list, { s with session := s.session.pushLoop kind items }) ∧
          (s.session.pushLoop kind items).loops.frames = frame :: s.session.loops.frames ∧
          frame.items = items ∧ list.elements? = some elements ∧
          elements.map Value.toData = items) ∧
    (∀ (loop : LoopCode) (running : Running (RenderState σ)) (start : Progress)
      (s₀ s : RenderState σ)
      (list : Value) (elements : List Value),
      (eval running.surroundings (running.site start) loop.opens).run.run s₀ = (.ok list, s) →
      list.elements? = some elements → start.scope.tooDeep = false →
        ∀ k begun t, (loop.turns running start elements s)[k]? = some (begun, t) →
          ∃ element, elements[k]? = some element ∧
            evalAll running.surroundings (running.site begun) loop.stepArguments =
              pure [element, .ofString loop.kind.name] ∧
            (exec running loop.statement start).run.run s₀ =
              (do
                let stop ← execAll running loop.turn begun
                loop.forRest running elements.length start.scope.loopDepth (k + 1) element
                  (elements.drop (k + 1)) { stop with scope := stop.scope.leave }).run.run t) ∧
    (∀ (site : Site) (item answer : Value) (kind : LoopKind) (s t : RenderState σ),
      (loopNext site item kind.name).run.run s = (.ok answer, t) →
        t.session.currentItem =
          if kind.bindsCurrentItem then item.toData else s.session.currentItem) ∧
    ((∀ name ∈ render.host.functions, ¬ OfLoops name) →
      (∀ template page, render.library.compile template = .ok page → Tidy OfLoops page.body) →
      ∀ (inner levels : Nat) (template : String) (discarded : Bool) (loop : LoopCode)
        (start : Progress) (s₀ s : RenderState σ) (list : Value),
        loop.Tidy OfLoops → start.Tidy OfLoops →
        (∀ name page, (name, page) ∈ s₀.compiled → Tidy OfLoops page.body) →
        let surroundings := render.surroundings (render.renderWithin inner)
        let running : Running (RenderState σ) :=
          ⟨surroundings, runWithin surroundings levels, template, discarded⟩
        (eval surroundings (running.site start) loop.opens).run.run s₀ = (.ok list, s) →
          ∃ (frame : LoopFrame) (elements : List Value),
            s.session.loops.frames = frame :: s₀.session.loops.frames ∧ frame.kind = loop.kind ∧
            list.elements? = some elements ∧ elements.map Value.toData = frame.items ∧
            ∀ k begun t, (loop.turns running start elements s)[k]? = some (begun, t) →
              ∀ answer u,
                (eval surroundings (running.site begun) loop.step).run.run t = (.ok answer, u) →
                u.session.loops.frames = { frame with position := some k } ::
                  s₀.session.loops.frames ∧
                ∃ item, frame.items[k]? = some item ∧
                  u.session.loops.top?.bind LoopFrame.current? = some item ∧
                  (loop.kind.bindsCurrentItem = true → u.session.currentItem = item)) ∧
    (∀ (kind : LoopKind) (line : Nat) (name : String) (sources : List Expression)
      (inside behind : Outline) (statements : List Statement),
      Outline.Codes OfLoops (.loop kind line name sources inside behind) statements →
        ∃ (loop : LoopCode) (closes : Expression) (rest : List Statement),
          statements = loop.statement :: .set "blade_loop" closes :: rest ∧ loop.Tidy OfLoops ∧
          (loop.kind, loop.name, loop.sources) = (kind, name, sources) ∧
          Outline.Codes OfLoops inside loop.body ∧ Outline.Codes OfLoops behind rest) ∧
    (PlainLibrary render.library → ∀ template page, render.library.compile template = .ok page →
      (∃ outline, Outline.Codes OfLoops outline page.body) ∧ Tidy OfLoops page.body) := by
  refine ⟨fun data canonical => Value.toData_ofData canonical,
    fun site source kindName s scalar => loopPush_of_scalar site scalar kindName s,
    fun site source kind items s active visited => ?_,
    fun loop running start s₀ s list elements opened visits shallow k begun t turn => ?_,
    fun site item answer kind s t stepped => ?_,
    fun functions pages inner levels template discarded loop start s₀ s list tidy hstart cached =>
      ?_,
    fun kind line name sources inside behind statements codes =>
      LoopCode.of_codes not_ofLoops_blade_loop codes,
    fun plain template page compiled =>
      ⟨plain.codes_of_compile compiled, plain.tidy_of_compile compiled⟩⟩
  · exact ⟨_, Value.ofItems items, _, loopPush_of_items active visited kind s, rfl, rfl, rfl,
      Value.map_toData_ofItems fun _ => Value.canonical_of_items? visited⟩
  · obtain ⟨element, here, bound, goesOn⟩ :=
      LoopCode.run_statement_of_turn opened visits shallow turn
    exact ⟨element, here, LoopCode.evalAll_stepArguments _ bound, goesOn⟩
  · obtain ⟨-, -, -, -, -, current⟩ := loopNext_eq_ok stepped
    exact current
  · intro surroundings running opened
    have hw := watched_plainWatch functions pages
    have hrenderer := renderWithin_disciplined hw inner fun followed => followed.elim
    have steady : Steady (plainWatch σ) OfLoops s₀.session.loops.frames .null s₀ :=
      ⟨⟨fun _ _ asked => asked.elim, trivial, cached⟩, rfl, fun followed => followed.elim⟩
    obtain ⟨frame, rfl, canonical, kind, -, begins⟩ := Meets.of_ok opened
      (open_meets hw hrenderer (fun followed => followed.elim) rfl hstart loop.kind tidy.sources)
        steady
    have hbody : ∀ frames item (progress : Progress), progress.Tidy OfLoops →
        Settles (plainWatch σ) OfLoops frames item (execAll running loop.body progress)
          (Progress.Tidy OfLoops) :=
      execAll_settles hw hrenderer (fun followed => followed.elim) rfl
        (runWithin_tidily hw hrenderer (fun followed => followed.elim) levels) tidy.body
    rw [← itemInside_unmoved frame .null] at begins
    refine ⟨moved frame 0, Value.ofItems frame.items, begins.frames, kind, rfl,
      Value.map_toData_ofItems canonical, fun k begun t turn answer u stepped => ?_⟩
    obtain ⟨hbegun, turned⟩ := LoopCode.steady_of_turn hw rfl hbody tidy.opened kind rfl
      (show Value.Avoids OfLoops .undefined from trivial) hstart begins turn
    obtain ⟨element, here, bound, -⟩ := LoopCode.run_forRest_of_turn turn
    rw [getElem?_ofItems, Option.map_eq_some_iff] at here
    obtain ⟨item, here, rfl⟩ := here
    have innermost : t.session.loops.frames = moved frame k :: s₀.session.loops.frames := by
      rw [turned.frames, Nat.zero_add]
    obtain ⟨frames, current⟩ := LoopCode.stands_of_step functions hbegun.scope bound
      (canonical item (List.mem_of_getElem? here)) innermost stepped
    refine ⟨frames, item, here, ?_, current⟩
    rw [LoopStack.top?, frames]
    exact here

def listedLoop : LoopCode where
  kind := .loop
  name := "x"
  opened := "blade_loop"
  sources := [.named 1 "a"]
  body := [.echo (.named 1 "x")]
  pushLine := 1
  pushKind := 1
  stepLine := 1
  stepItem := 1
  stepKind := 1

theorem listedLoop_tidy : listedLoop.Tidy OfLoops where
  opened := not_ofLoops_blade_loop
  sources := ⟨not_ofLoops_of_unknown rfl, trivial⟩
  body := .echo (not_ofLoops_of_unknown rfl) .nil

def listedRunning : Running (RenderState Unit) :=
  let surroundings := (ofTemplates []).surroundings ((ofTemplates []).renderWithin 0)
  ⟨surroundings, runWithin surroundings 0, "t", false⟩

def listedStart : Progress where
  scope := { given := context [("a", .list [.int 10, .int 20])] }
  blocks := []

def listedState : RenderState Unit where
  session := { currentItem := .null }
  host := ()
  compiled := []

/-- In the second of its turns the loop stands on the second item of the list. -/
theorem listedLoop_stands_on_items : ∃ s begun t answer u,
    (eval listedRunning.surroundings (listedRunning.site listedStart) listedLoop.opens).run.run
      listedState = (.ok (.ofData (.list [.int 10, .int 20])), s) ∧
    (listedLoop.turns listedRunning listedStart (Value.ofItems [.int 10, .int 20]) s)[1]? =
      some (begun, t) ∧
    (eval listedRunning.surroundings (listedRunning.site begun) listedLoop.step).run.run t =
      (.ok answer, u) ∧
    u.session.loops.top?.bind LoopFrame.current? = some (.int 20) ∧
    u.session.currentItem = .int 20 := by
  obtain ⟨-, -, -, -, -, stands, -⟩ := loop_runs_over_frame_items (ofTemplates [])
  have start : listedStart.Tidy OfLoops :=
    tidy_start (bindable_context _) fun _ _ hmem => nomatch hmem
  obtain ⟨frame, elements, -, -, visited, items, stood⟩ := stands (fun _ hmem => nomatch hmem)
    (fun _ _ compiled => nomatch compiled) 0 0 "t" false listedLoop listedStart listedState _ _
    listedLoop_tidy start (fun _ _ hmem => nomatch hmem) rfl
  obtain rfl : elements = Value.ofItems [.int 10, .int 20] := (Option.some.inj visited).symm
  obtain ⟨-, item, here, top, current⟩ := stood 1 _ _ rfl _ _ rfl
  rw [← items] at here
  cases here
  exact ⟨_, _, _, _, _, rfl, rfl, rfl, top, current rfl⟩

/-- A loop whose body closes the frame of the loop and opens another one over the same list. -/
def reopeningLoop : Fields String :=
  [("t", "@loop($a as $x)\x7b\x7b blade_loop.index \x7d\x7d" ++
    "\x7b% set y = __loop_pop('loop') %\x7d\x7b% set y = __loop_push(a, 'loop') %\x7d@endloop")]

def reopeningRun (page : Page) : PageRun Unit :=
  .root page [("a", .list [.int 10, .int 20])]
    { session := { currentItem := .null }, host := (), compiled := [] }

def turnOf (site : Site) : Option Nat :=
  match site.scope.frames.head?.bind Frame.loop with
  | some (.forState index _ _ _ _) => some index
  | _ => none

/-- The step of a second turn, given the item 20 of the list, that puts the innermost frame on the
item 10. -/
structure Astray (run : PageRun Unit) (call : Invocation (RenderState Unit)) : Prop where
  name : call.name = PageFunction.loopNext.name
  turn : turnOf call.site = some 1
  args : call.args.map Value.toData = [.int 20, .text LoopKind.loop.name]
  stands : ∃ value t, (run.surroundings (ofTemplates reopeningLoop)).answer call = (.ok value, t) ∧
    t.session.loops.top?.bind LoopFrame.current? = some (.int 10)

def isAstray (run : PageRun Unit) (call : Invocation (RenderState Unit)) : Bool :=
  match call.name == PageFunction.loopNext.name && turnOf call.site == some 1,
    call.args.map Value.toData, (run.surroundings (ofTemplates reopeningLoop)).answer call with
  | true, [.int 20, .text kind], (.ok _, t) =>
    match t.session.loops.top?.bind LoopFrame.current? with
    | some (.int 10) => kind == LoopKind.loop.name
    | _ => false
  | _, _, _ => false

theorem astray_of_isAstray {run : PageRun Unit} {call : Invocation (RenderState Unit)}
    (h : isAstray run call = true) : Astray run call := by
  unfold isAstray at h
  split at h
  · next named given answered =>
      split at h
      · next stands =>
          obtain rfl := eq_of_beq h
          obtain ⟨name, turn⟩ := Bool.and_eq_true_iff.mp named
          exact ⟨eq_of_beq name, eq_of_beq turn, given, _, _, answered, stands⟩
      · cases h
  · cases h

/-- In the second turn of the loop the step is given the second item, and the innermost frame stands
on the first one. -/
theorem reopening_loop_stands_elsewhere : ∃ page,
    (ofTemplates reopeningLoop).library.compile "t" = .ok page ∧
      ∃ call ∈ (reopeningRun page).calls (ofTemplates reopeningLoop),
        Astray (reopeningRun page) call := by
  have found : ((ofTemplates reopeningLoop).library.compile "t").toOption.any (fun page =>
      ((reopeningRun page).calls (ofTemplates reopeningLoop)).any (isAstray (reopeningRun page))) =
      true := by
    decide +kernel
  cases compiled : (ofTemplates reopeningLoop).library.compile "t" with
  | error fault =>
      rw [compiled] at found
      cases found
  | ok page =>
      rw [compiled] at found
      obtain ⟨call, made, astray⟩ := List.any_eq_true.mp found
      exact ⟨page, rfl, call, made, astray_of_isAstray astray⟩

end Render

end ThemeTemplates
