import Mathlib.Data.List.Forall2
import ThemeTemplates.Proofs.Page.Mirror
import ThemeTemplates.Proofs.Render.LoopVariable
import ThemeTemplates.Proofs.Render.Origin

/-!
# Renders and their law

A render beside the law of its loops. The loops that are open in the render are the turns that the
law runs inside, and what the law keeps is the same in the state of the render. As long as partials
are given ordinary data, children and hosts come to the same in both.
-/

namespace ThemeTemplates

structure Turn.Stands (turn : Turn) (frame : LoopFrame) : Prop where
  items : frame.items = turn.items
  position : frame.position = some turn.index
  inside : turn.index < turn.items.length

theorem Turn.metadataOf_eq {enclosing : List Turn} {frames : List LoopFrame}
    (stands : List.Forall₂ Turn.Stands enclosing frames) :
    LoopStack.metadataOf frames = Turn.metadata? enclosing := by
  induction stands with
  | nil => rfl
  | @cons turn frame enclosing frames here around ih =>
      have last : decide (turn.items.length ≤ turn.index + 1) =
          (turn.index + 1 == turn.items.length) := by
        have := here.inside
        rw [Bool.eq_iff_iff, decide_eq_true_iff, beq_iff_eq]
        omega
      simp only [LoopStack.metadataOf, Turn.metadata?, LoopFrame.metadata, LoopFrame.index,
        LoopFrame.iteration, here.items, here.position, Option.getD_some, ih, last,
        around.length_eq]

theorem Fault.calm_false (fault : Fault) : fault.Calm False :=
  fun _ _ asked => asked.elim

def Unruly (ledger : List ViewData) : Prop :=
  ∃ data ∈ ledger, ¬ Ordinary data

theorem Unruly.cons {ledger : List ViewData} (h : Unruly ledger) (data : ViewData) :
    Unruly (data :: ledger) := by
  obtain ⟨found, hmem, unruly⟩ := h
  exact ⟨found, List.mem_cons_of_mem _ hmem, unruly⟩

namespace Render

open Evaluation

variable {σ : Type} {library : Library} {levels : Nat} {frames : List LoopFrame}
  {enclosing : List Turn} {render : Render σ} {renderer : Renderer σ}
  {inner? : Option (LawfulRenderer σ)} {inner : LawfulRenderer σ} {site : Site} {s : RenderState σ}
  {r : Course σ}

/-- The law has seen data given to a partial that are not ordinary. -/
def Lost (r : Course σ) : Prop :=
  Unruly r.given

/-- A state of a render in which these loops are open and so many children may be below, and the
course of its law. -/
structure Reflects (library : Library) (levels : Nat) (frames : List LoopFrame) (s : RenderState σ)
    (r : Course σ) : Prop where
  frames : s.session.loops.frames = frames
  item : r.currentItem = s.session.currentItem
  failure : r.failure = s.session.failure
  room : s.session.depth + levels = Session.depthLimit
  host : r.host = s.host
  cached : ∀ name page, (name, page) ∈ s.compiled → library.compile name = .ok page

def Strays (library : Library) (levels : Nat) (frames : List LoopFrame) (s : RenderState σ)
    (r : Course σ) : Prop :=
  ∃ opened, Reflects library levels (opened ++ frames) s r

def lawMirror (library : Library) (levels : Nat) (frames : List LoopFrame) :
    Mirror (RenderState σ) (Course σ) where
  strict := False
  lost := Lost
  stopped := Strays library levels frames

namespace Reflects

theorem strays (h : Reflects library levels frames s r) : Strays library levels frames s r :=
  ⟨[], h⟩

theorem setHost (h : Reflects library levels frames s r) (host : σ) :
    Reflects library levels frames { s with host } { r with host } :=
  ⟨h.frames, h.item, h.failure, h.room, rfl, h.cached⟩

theorem give (h : Reflects library levels frames s r) (data : ViewData) :
    Reflects library levels frames s { r with given := data :: r.given } :=
  ⟨h.frames, h.item, h.failure, h.room, h.host, h.cached⟩

theorem record (h : Reflects library levels frames s r) (failure : Failure) :
    Reflects library levels frames { s with session := s.session.record failure }
      { r with failure := r.failure.or (some failure) } :=
  ⟨h.frames, h.item, congrArg (·.or (some failure)) h.failure, h.room, h.host, h.cached⟩

theorem setItem (h : Reflects library levels frames s r) (item : Data) :
    Reflects library levels frames { s with session := { s.session with currentItem := item } }
      { r with currentItem := item } :=
  ⟨h.frames, rfl, h.failure, h.room, h.host, h.cached⟩

end Reflects

variable (render) in
theorem look_eq (h : Reflects library levels frames s r) (lawful : site.scope.Lawful enclosing)
    (stands : List.Forall₂ Turn.Stands enclosing frames) :
    render.look site s = r.view site.template render.view enclosing site.scope.data? := by
  have metadata : s.session.loops.metadata? = Turn.metadata? enclosing := by
    rw [LoopStack.metadata?, h.frames, Turn.metadataOf_eq stands]
  have depth : s.session.loops.depth = enclosing.length := by
    rw [LoopStack.depth, h.frames, stands.length_eq]
  have found : (render.look site s).find? =
      (r.view site.template render.view enclosing site.scope.data?).find? := by
    funext name
    rw [find?_look]
    simp only [Course.view]
    split
    · next same => rw [same, lawful.shows]
    · rfl
  simp only [look, Course.view] at found ⊢
  rw [found, metadata, depth, h.item]

/-! ### Children -/

/-- Children and their law come to the same from related states, given data that show the loops.
Where the law has none, as many are inside each other as there may be. -/
inductive Obeys (library : Library) : Nat → Renderer σ → Option (LawfulRenderer σ) → Prop
  | none {renderer : Renderer σ} : Obeys library 0 renderer none
  | some {levels : Nat} {renderer : Renderer σ} {inner : LawfulRenderer σ}
    (loses : ∀ enclosing template data,
      Preserves False Lost (inner enclosing template (context data)) fun _ => True)
    (follows : ∀ frames enclosing template data s r, Handed enclosing data →
      List.Forall₂ Turn.Stands enclosing frames → Reflects library levels frames s r →
      (lawMirror library levels frames).Ends (fun _ => True)
        (Same fun _ => Reflects library levels frames)
        ((renderer template (context data)).run.run s)
        ((inner enclosing template (context data)).run.run r)) :
    Obeys library (levels + 1) renderer (some inner)

/-- How a step that cannot fail and its image end: with the same result in related states, or with a
law that is lost. -/
def Tracks {α : Type} (library : Library) (levels : Nat) (frames : List LoopFrame)
    (first : α × RenderState σ) (second : α × Course σ) : Prop :=
  (first.1 = second.1 ∧ Reflects library levels frames first.2 second.2) ∨ Lost second.2

def Course.settled (template : String) :
    Except Fault String × Course σ → Except Failure String × Course σ
  | (.ok output, stop) => (.ok output, stop)
  | (.error fault, stop) =>
    (.error (stop.failure.getD (Failure.ofFault fault template)), { stop with failure := none })

theorem Course.run_settle (template : String) (evaluation : Evaluation (Course σ) String)
    (begun : Course σ) :
    (Course.settle template evaluation).run begun =
      Course.settled template (evaluation.run.run begun) := by
  unfold Course.settle
  rw [StateT.run_bind]
  rcases evaluation.run.run begun with ⟨_ | _, _⟩ <;> rfl

theorem Course.given_settled (template : String) (ended : Except Fault String × Course σ) :
    (Course.settled template ended).2.given = ended.2.given := by
  rcases ended with ⟨_ | _, _⟩ <;> rfl

theorem lawfulChild_of_error {scope : Scope} {template : String} {data : ViewData}
    {failure : Failure} (failed :
      View.resolveChild render.defaults template scope.inheritable data = .error failure) :
    (render.lawfulChild inner? enclosing scope template data).run r =
      (.error failure, { r with given := data :: r.given }) := by
  unfold lawfulChild
  rw [failed]
  rfl

theorem lawfulChild_of_none {scope : Scope} {template : String} {data merged : ViewData}
    (resolved : View.resolveChild render.defaults template scope.inheritable data = .ok merged) :
    (render.lawfulChild none enclosing scope template data).run r =
      (.error (.evaluation template 0 (.nestedTooDeep 32)),
        { r with given := data :: r.given }) := by
  unfold lawfulChild
  rw [resolved]
  rfl

theorem lawfulChild_of_some {scope : Scope} {template : String} {data merged : ViewData}
    (resolved : View.resolveChild render.defaults template scope.inheritable data = .ok merged) :
    (render.lawfulChild (some inner) enclosing scope template data).run r =
      Course.settled template ((inner enclosing template (context merged)).run.run
        { r with given := data :: r.given }) := by
  unfold lawfulChild
  rw [resolved]
  exact Course.run_settle ..

/-- A law stays lost, and is lost with the first data that are not ordinary. -/
theorem lost_lawfulChild (obeys : Obeys library levels renderer inner?) (scope : Scope)
    (template : String) {data : ViewData} (unruly : Unruly (data :: r.given)) :
    Lost ((render.lawfulChild inner? enclosing scope template data).run r).2 := by
  cases resolved : View.resolveChild render.defaults template scope.inheritable data with
  | error failure =>
      rw [lawfulChild_of_error resolved]
      exact unruly
  | ok merged =>
      cases obeys with
      | none =>
          rw [lawfulChild_of_none resolved]
          exact unruly
      | @some _ _ inner loses follows =>
          rw [lawfulChild_of_some resolved]
          have ended := loses enclosing template merged { r with given := data :: r.given } unruly
          revert ended
          rcases (inner enclosing template (context merged)).run.run
            { r with given := data :: r.given } with ⟨_ | _, _⟩ <;> exact fun ended => ended.2

theorem Reflects.afterOutput {stop : RenderState σ} {stop' : Course σ}
    (h : Reflects library (levels + 1) frames s r)
    (ended : Reflects library levels frames stop stop') (output : String) :
    Tracks library (levels + 1) frames (afterChild s stop (.ok output)) (.ok output, stop') := by
  have closed : stop.session.loops.frames = s.session.loops.frames := by rw [ended.frames, h.frames]
  have room : stop.session.depth - 1 + (levels + 1) = Session.depthLimit := by
    have before := h.room
    have behind := ended.room
    omega
  simp only [afterChild, Session.leave, verify_of_frames_eq closed]
  exact .inl ⟨rfl, ended.frames, ended.item, ended.failure, room, ended.host, ended.cached⟩

theorem Reflects.afterFault {stop : RenderState σ} {stop' : Course σ}
    (h : Reflects library (levels + 1) frames s r) (ended : Strays library levels frames stop stop')
    (template : String) (fault : Fault) :
    Tracks library (levels + 1) frames
      (afterChild s ((takeFailure template fault).run stop).2
        (.error ((takeFailure template fault).run stop).1))
      (Course.settled template (.error fault, stop')) := by
  obtain ⟨opened, ended⟩ := ended
  have room : stop.session.depth - 1 + (levels + 1) = Session.depthLimit := by
    have before := h.room
    have behind := ended.room
    omega
  refine .inl ⟨?_, ?_, ended.item, rfl, room, ended.host, ended.cached⟩
  · change Except.error (stop.session.failure.getD _) = Except.error (stop'.failure.getD _)
    rw [ended.failure]
  · rw [← h.frames]
    refine frames_unwind_eq_iff.mpr ⟨opened, ?_⟩
    rw [h.frames]
    exact ended.frames.symm

/-- Defaults that set neither the variable of the loops nor a hidden name. -/
def PlainDefaults (render : Render σ) : Prop :=
  ∀ template layer, render.defaults template = .ok layer → Ordinary layer

theorem renderChild_tracks (obeys : Obeys library levels renderer inner?)
    (defaults : render.PlainDefaults) (lawful : site.scope.Lawful enclosing)
    (stands : List.Forall₂ Turn.Stands enclosing frames) (template : String) (data : ViewData)
    (h : Reflects library levels frames s r) :
    Tracks library levels frames ((render.renderChild renderer site template data).run s)
      ((render.lawfulChild inner? enclosing site.scope template data).run r) := by
  by_cases ordinary : Ordinary data
  · cases resolved : View.resolveChild render.defaults template site.scope.inheritable data with
    | error failure =>
        rw [lawfulChild_of_error resolved]
        unfold renderChild
        rw [resolved]
        exact .inl ⟨rfl, h.give data⟩
    | ok merged =>
        have room := h.room
        cases obeys with
        | none =>
            rw [lawfulChild_of_none resolved, renderChild_nested resolved (by omega)]
            exact .inl ⟨rfl, h.give data⟩
        | @some levels _ inner loses follows =>
            have begun : Reflects library levels frames s.entered
                { r with given := data :: r.given } :=
              ⟨h.frames, h.item, h.failure, by simp only [RenderState.entered]; omega, h.host,
                h.cached⟩
            have ran : render.childRun renderer site template data s =
                some ((renderer template (context merged)).run.run s.entered) :=
              childRun_eq_some_iff.mpr ⟨merged, resolved, by omega, rfl⟩
            have ended := follows frames enclosing template merged _ _
              (lawful.handed defaults ordinary resolved) stands begun
            rw [lawfulChild_of_some resolved]
            generalize (renderer template (context merged)).run.run s.entered = first,
              (inner enclosing template (context merged)).run.run
                { r with given := data :: r.given } = second at ended ran
            cases ended with
            | value kept related =>
                obtain ⟨rfl, related⟩ := related
                rw [renderChild_of_output ran]
                exact h.afterOutput related _
            | fault related =>
                rw [renderChild_of_fault ran]
                exact h.afterFault related template _
            | lostValue kept lost => exact .inr lost
            | lostFault lost => exact .inr lost
  · exact .inr (lost_lawfulChild obeys _ template ⟨data, List.mem_cons_self, ordinary⟩)

/-! ### Hosts -/

section

variable (obeys : Obeys library levels renderer inner?) {α : Type}

include obeys

theorem lost_carryOut (seen : Course σ → RenderView) (scope : Scope) (action : HostAction σ α)
    (lost : Lost r) :
    Lost ((action.carryOut seen (render.lawfulChild inner? enclosing scope)).run r).2 := by
  induction action generalizing r with
  | answer | fail => exact lost
  | look _ ih => exact ih _ lost
  | readState _ ih => exact ih _ lost
  | writeState _ _ ih => exact ih lost
  | renderChild template data _ ih =>
      exact ih _ (lost_lawfulChild obeys scope template (Unruly.cons lost data))

variable (defaults : render.PlainDefaults) (lawful : site.scope.Lawful enclosing)
  (stands : List.Forall₂ Turn.Stands enclosing frames)

include defaults lawful stands

theorem perform_tracks (action : HostAction σ α) (h : Reflects library levels frames s r) :
    Tracks library levels frames ((render.perform renderer site action).run s)
      ((action.carryOut
        (fun course => course.view site.template render.view enclosing site.scope.data?)
        (render.lawfulChild inner? enclosing site.scope)).run r) := by
  induction action generalizing s r with
  | answer | fail => exact .inl ⟨rfl, h⟩
  | look resume ih =>
      change Tracks library levels frames
        ((render.perform renderer site (resume (render.look site s))).run s) _
      rw [look_eq render h lawful stands]
      exact ih _ h
  | readState resume ih =>
      change Tracks library levels frames ((render.perform renderer site (resume s.host)).run s) _
      rw [← h.host]
      exact ih r.host h
  | writeState host resume ih => exact ih (h.setHost host)
  | renderChild template data resume ih =>
      change Tracks library levels frames
        ((render.perform renderer site (resume
          ((render.renderChild renderer site template data).run s).1)).run
          ((render.renderChild renderer site template data).run s).2) _
      rcases renderChild_tracks obeys defaults lawful stands template data
        h with ⟨same, related⟩ | lost
      · rw [same]
        exact ih _ related
      · exact .inr (lost_carryOut obeys _ site.scope (resume _) lost)

end

end Render

end ThemeTemplates
