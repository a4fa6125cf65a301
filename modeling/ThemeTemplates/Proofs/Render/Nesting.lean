import ThemeTemplates.Proofs.Page.Placement
import ThemeTemplates.Proofs.Render.Requests

/-!
# Child renders are counted

The counter of a session is the number of child renders in progress at every moment of a root
render, whatever hosts render and whichever children fail. A child is refused exactly when as many
are in progress as there may be.
-/

namespace ThemeTemplates

open Evaluation

variable {σ : Type}

/-- The only call of a page that echoes the call of a function with constant arguments. -/
theorem Surroundings.calls_echo (surroundings : Surroundings σ) {template function : String}
    {line : Nat} {args : List Expression} {values : List Value} {given : Fields Value}
    (known : resolve? surroundings { given } function = some (.function function))
    (plain : ownCalls.contains function = false)
    (constant : evalAll surroundings.noting ⟨template, { given }⟩ args = pure values) (s : σ) :
    surroundings.calls ⟨template, [.echo (.call line function args)]⟩ given s =
      [⟨⟨template, { given }⟩, function, values, s⟩] := by
  let call : Invocation σ := ⟨⟨template, { given }⟩, function, values, s⟩
  have echoed := printPage_echo surroundings.noting template [] [] (.call line function args) given
  have called : eval surroundings.noting call.site (.call line function args) =
      locate template line (surroundings.noting.call call.site function values) := by
    have resolved : resolve? surroundings.noting call.site.scope function =
        some (.function function) :=
      known
    have evaluated : evalAll surroundings.noting call.site args = pure values := constant
    simp only [eval, evaluated, pure_bind, resolved, plain]
    rfl
  have answered : (surroundings.noting.call call.site function values).run.run (s, []) =
      ((surroundings.answer call).1, ((surroundings.answer call).2, [call])) := rfl
  unfold calls
  change ((printPage surroundings.noting ⟨template, texts [] ++ Statement.echo _ :: texts []⟩
    given).run.run (s, [])).2.2 = _
  rw [echoed, called, run_bind, locate, run_tryCatch, answered]
  cases (surroundings.answer call).1 <;> rfl

namespace Render

/-- The states that a run comes through: those it begins and ends in, those its calls find and
leave, and those a host meets in between. -/
inductive Moment (render : Render σ) (run : PageRun σ) : RenderState σ → Prop
  | start : Moment render run run.start
  | found {call : Invocation (RenderState σ)} (made : call ∈ run.calls render) :
    Moment render run call.found
  | host {α : Type} {call : Invocation (RenderState σ)} {asked : String}
      {action rest : HostAction σ α}
    {yield : α → Value} {s : RenderState σ} (made : call ∈ run.calls render)
    (active : Active call.site)
    (asks : render.undertakes? call.name call.args = some (.ask asked action yield))
    (comes : HostSteps render (render.renderWithin run.levels) call.site (action, call.found)
      (rest, s)) :
    Moment render run s
  | left {call : Invocation (RenderState σ)} (made : call ∈ run.calls render) :
    Moment render run ((run.surroundings render).answer call).2
  | stop : Moment render run (run.stop render).2

variable {kept : String → Page → Prop} {levels : Nat} {render : Render σ} {site : Site}
  {template : String} {data merged : ViewData} {s : RenderState σ}

/-- A child that has its variables is refused only for being too deep inside others. -/
theorem childRun_eq_none_iff {renderer : Renderer σ}
    (supplied : View.resolveChild render.defaults template site.scope.inheritable data =
      .ok merged) :
    render.childRun renderer site template data s = none ↔
    Session.depthLimit ≤ s.session.depth := by
  unfold childRun Session.enter
  rw [supplied, ← Nat.not_lt]
  by_cases room : s.session.depth < Session.depthLimit <;> simp [room]

section

variable (compiles : ∀ template page, render.library.compile template = .ok page →
    kept template page)
  {run : PageRun σ}

include compiles

theorem depth_of_childRun {depth : Nat} (hs : Idle kept depth s) {result : Except Fault String}
    {stop : RenderState σ}
    (ran : render.childRun (render.renderWithin levels) site template data s =
      some (result, stop)) :
    stop.session.depth = depth + 1 := by
  obtain ⟨merged, -, -, ran⟩ := childRun_eq_some_iff.mp ran
  have ended := renderWithin_settles compiles levels (depth + 1) template
    (context merged) _ hs.enter
  rw [ran] at ended
  cases result with
  | ok output => exact ended.depth
  | error fault => exact ended.depth

theorem Ready.depth_of_moment (ready : Ready kept run) (moment : Moment render run s) :
    s.session.depth = run.start.session.depth := by
  have settles := renderWithin_settles compiles run.levels
  cases moment with
  | start => rfl
  | found made => exact (ready.found compiles made).depth
  | host made _ _ comes =>
      have idle := HostSteps.idle settles comes (ready.found compiles made)
      exact idle.depth
  | @left call made =>
      have answered := answer_keeps render settles call (ready.found compiles made) _ rfl
      unfold Surroundings.answer PageRun.surroundings
      generalize ((render.surroundings (render.renderWithin run.levels)).call call.site call.name
        call.args).run.run call.found = outcome at answered ⊢
      obtain ⟨result, t⟩ := outcome
      cases result with
      | ok value => exact answered.1.depth
      | error fault => exact answered.2.1.depth
  | stop =>
      have ended := ready.stop compiles
      generalize run.stop render = outcome at ended ⊢
      obtain ⟨result, t⟩ := outcome
      cases result with
      | ok output => exact ended.depth
      | error fault => exact ended.1.depth

end

theorem depth_root (page : Page) (data : ViewData) (start : RenderState σ) :
    ((render.root page data).run start).2.session.depth =
      ((PageRun.root page data start).stop render).2.session.depth := by
  cases stopped : (PageRun.root page data start).stop render with
  | mk result t =>
      cases result with
      | ok output =>
          have ended : (render.root page data).run start = _ := root_of_output stopped
          rw [ended]
      | error fault =>
          have ended : (render.root page data).run start = _ := root_of_fault stopped
          rw [ended]
          rfl

/-- At every moment of a root render the session has counted the child renders that are in progress,
and these are never more than there may be. A child that is asked for finds this number and gives it
back, however it ends; its own page ends with one more, so that the counter never falls below what
it counts. If it has its variables, it is refused exactly when as many are in progress as there may
be, with nothing else done. In the end none is in progress. -/
theorem depth_counts_children (render : Render σ) (page : Page) (data : ViewData)
    (item : Data) (host : σ) (compiled : Fields Page) :
    (∀ n run, InProgress render (.root page data (.fresh item host compiled)) n run →
      n ≤ Session.depthLimit ∧
      (∀ s, Moment render run s → s.session.depth = n) ∧
      ∀ call ∈ run.calls render, ∀ s template given,
        Requests render run.levels call s template given →
        s.session.depth = n ∧
        ((render.renderChild (render.renderWithin run.levels) call.site template given).run
          s).2.session.depth = n ∧
        (∀ result stop, render.childRun (render.renderWithin run.levels) call.site
          template given s =
          some (result, stop) → stop.session.depth = n + 1) ∧
        ∀ merged,
          View.resolveChild render.defaults template call.site.scope.inheritable given =
            .ok merged →
          (render.childRun (render.renderWithin run.levels) call.site template given s = none ↔
            n = Session.depthLimit) ∧
          (n = Session.depthLimit →
            (render.renderChild (render.renderWithin run.levels) call.site template given).run s =
              (.error (.evaluation template 0 (.nestedTooDeep Session.depthLimit)), s))) ∧
    ((render.root page data).run (.fresh item host compiled)).2.session.depth = 0 := by
  have anyPage : ∀ template page, render.library.compile template = .ok page → True :=
    fun _ _ _ => trivial
  have begun : Ready (fun _ _ => True) (.root page data (.fresh item host compiled)) :=
    ready_root page data item host compiled
  constructor
  · intro n run within
    obtain ⟨ready, counted⟩ := within.ready anyPage begun
    have deep : run.start.session.depth = n := counted.trans (Nat.zero_add n)
    have room : n + run.levels = Session.depthLimit := deep ▸ ready.room
    refine ⟨by omega, fun s moment => (ready.depth_of_moment anyPage moment).trans deep, ?_⟩
    intro call made s template given requested
    have idle : Idle (fun _ _ => True) n s := deep ▸ ready.requested anyPage made requested
    have left : Idle (fun _ _ => True) n
        ((render.renderChild (render.renderWithin run.levels) call.site template given).run s).2 :=
      renderChild_idle (settles_everything render run.levels) call.site template given idle
    refine ⟨idle.depth, left.depth, fun result stop ran => depth_of_childRun anyPage idle ran,
      fun merged supplied => ⟨?_, fun full => ?_⟩⟩
    · rw [childRun_eq_none_iff supplied, idle.depth]
      omega
    · exact renderChild_nested supplied (idle.depth.trans full).ge
  · rw [depth_root]
    exact begun.depth_of_moment anyPage .stop

def endlessPage : Page :=
  ⟨"endless", [.echo (.call 1 "__render_child" [.constant 1 (.ofString "endless")])]⟩

def endlessRun (n : Nat) : PageRun Unit where
  template := "endless"
  page := endlessPage
  given := context []
  start :=
    { session := { currentItem := .null, depth := n }
      host := ()
      compiled := [("endless", endlessPage)] }
  levels := Session.depthLimit - n

def endlessCall (n : Nat) : Invocation (RenderState Unit) :=
  ⟨⟨"endless", { given := context [] }⟩, "__render_child", [.ofString "endless"],
    (endlessRun n).start⟩

theorem endlessCall_made (n : Nat) : endlessCall n ∈ (endlessRun n).calls (ofTemplates []) := by
  have noted : (endlessRun n).calls (ofTemplates []) = [endlessCall n] :=
    Surroundings.calls_echo _ rfl rfl rfl _
  rw [noted]
  exact List.mem_singleton_self _

theorem endlessRun_inProgress {n : Nat} (room : n ≤ Session.depthLimit) :
    InProgress (ofTemplates []) (endlessRun 0) n (endlessRun n) := by
  induction n with
  | zero => exact .root
  | succ n ih =>
      have below : Session.depthLimit - n = Session.depthLimit - (n + 1) + 1 := by omega
      exact .child (ih (Nat.le_of_succ_le room)) (endlessCall_made n) (.own ⟨rfl, rfl⟩)
        (.intro rfl room rfl) below

theorem endlessPage_refused :
    InProgress (ofTemplates []) (.root endlessPage [] (.fresh .null () [("endless", endlessPage)]))
      Session.depthLimit (endlessRun Session.depthLimit) ∧
    ((ofTemplates []).renderChild
      ((ofTemplates []).renderWithin (endlessRun Session.depthLimit).levels)
        (endlessCall Session.depthLimit).site "endless" []).run
          (endlessRun Session.depthLimit).start =
      (.error (.evaluation "endless" 0 (.nestedTooDeep Session.depthLimit)),
        (endlessRun Session.depthLimit).start) := by
  have within := endlessRun_inProgress (Nat.le_refl Session.depthLimit)
  refine ⟨within, ?_⟩
  obtain ⟨-, -, asked⟩ := (depth_counts_children (ofTemplates []) endlessPage [] .null ()
    [("endless", endlessPage)]).1 _ _ within
  obtain ⟨-, -, -, supplied⟩ :=
    asked _ (endlessCall_made Session.depthLimit) _ "endless" [] (.own ⟨rfl, rfl⟩)
  exact (supplied [] rfl).2 rfl

end Render

end ThemeTemplates
