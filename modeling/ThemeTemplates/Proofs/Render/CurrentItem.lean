import ThemeTemplates.Proofs.Render.Discipline
import ThemeTemplates.Proofs.Render.Slot

/-!
# The current item after a failing child

A loop that ends gives back the item it was opened with; a loop that is dropped because its render
failed does not. So a failing child changes the current item exactly if it stops inside a `@loop`
that has moved on to another item.
-/

namespace ThemeTemplates.Render

open Evaluation

variable {σ : Type}

/-- The functions by which pages open, move and close loops and set the current item. -/
def itemFunctions : List PageFunction :=
  [.loopPush, .loopNext, .loopPop, .setCurrentItem, .resetCurrentItem]

def ChangesItem (name : String) : Prop :=
  ∃ function ∈ itemFunctions, name = function.name

def itemWatch (σ : Type) : Watch σ where
  strict := False
  tracked := True
  host := fun _ => True

/-- The pages that have been compiled change the current item by loop directives only. -/
def CachesTidily (s : RenderState σ) : Prop :=
  ∀ name page, (name, page) ∈ s.compiled → Tidy ChangesItem page.body

theorem sound_itemWatch {s : RenderState σ} :
    Sound (itemWatch σ) ChangesItem s ↔ CachesTidily s := by
  constructor
  · exact fun h => h.compiled
  · exact fun h => ⟨fun _ _ asked => asked.elim, trivial, h⟩

theorem watched_itemWatch {render : Render σ}
    (functions : ∀ name ∈ render.host.functions, ¬ ChangesItem name)
    (pages : ∀ template page, render.library.compile template = .ok page →
      Tidy ChangesItem page.body) : Watched (itemWatch σ) ChangesItem render where
  hidesLoops := fun function hmem => ⟨function, by
    simp only [itemFunctions, List.mem_cons, List.not_mem_nil] at hmem ⊢
    tauto, rfl⟩
  hidesItem := fun _ function hmem => ⟨function, by
    simp only [itemFunctions, List.mem_cons, List.not_mem_nil] at hmem ⊢
    tauto, rfl⟩
  functions := functions
  host := Host.keeps_true _ _
  pages := pages
  faults := fun _ _ _ _ _ asked => asked.elim

/-- Whether every failing child at a level gives the current item back. -/
def GivesItemBack (render : Render σ) (level : Nat) : Prop :=
  ∀ site template data (s t : RenderState σ) failure, CachesTidily s →
    (render.renderChild (render.renderWithin level) site template data).run s =
      (.error failure, t) →
    t.session.currentItem = s.session.currentItem

/-- Whether every child at a level that is stopped by a fault stops where the current item is the
one it began with: outside the `@loop` directives it opened, or on an item that is the same. -/
def StopsOnItem (render : Render σ) (level : Nat) : Prop :=
  ∀ site template data (s stop : RenderState σ) fault opened, CachesTidily s →
    render.childRun (render.renderWithin level) site template data s =
      some (.error fault, stop) →
    stop.session.loops.frames = opened ++ s.session.loops.frames →
    itemInside opened s.session.currentItem = s.session.currentItem

/-- The loops that a failing child has open where it stops. A child that is not started has none. -/
def LeavesOpen (render : Render σ) (level : Nat) (site : Site) (template : String) (data : ViewData)
    (s : RenderState σ) (opened : List LoopFrame) : Prop :=
  let ran := render.childRun (render.renderWithin level) site template data s
  (ran = none ∧ opened = []) ∨ ∃ fault stop, ran = some (.error fault, stop) ∧
    stop.session.loops.frames = opened ++ s.session.loops.frames

theorem restoresItem_iff {render : Render σ} {level : Nat} :
    render.RestoresItem (itemWatch σ) ChangesItem (render.renderWithin level) ↔
      render.GivesItemBack level := by
  constructor
  · exact fun h site template data s t failure hs => h site template data s t failure
      (sound_itemWatch.mpr hs)
  · exact fun h site template data s t failure hs => h site template data s t failure
      (sound_itemWatch.mp hs)

variable {render : Render σ}

/-- Where children of lower levels give the item back, a child stopped by a fault stands on the item
of the loops it has open. -/
theorem currentItem_of_stopped (hw : Watched (itemWatch σ) ChangesItem render) {level : Nat}
    (below : ∀ lower < level, render.GivesItemBack lower) {site : Site} {template : String}
    {data : ViewData} {s stop : RenderState σ} {fault : Fault} (hs : CachesTidily s)
    (ran : render.childRun (render.renderWithin level) site template data s =
      some (.error fault, stop)) :
    ∃ opened, stop.session.loops.frames = opened ++ s.session.loops.frames ∧
      stop.session.currentItem = itemInside opened s.session.currentItem := by
  have disciplined := renderWithin_disciplined hw level fun _ lower hlower =>
    restoresItem_iff.mpr (below lower hlower)
  have steady : Steady (itemWatch σ) ChangesItem s.session.loops.frames s.session.currentItem s :=
    ⟨sound_itemWatch.mpr hs, rfl, fun _ => rfl⟩
  obtain ⟨_, _, opened, same, current⟩ := childRun_disciplined disciplined steady ran
  exact ⟨opened, same, current trivial⟩

/-- Where children of lower levels give the item back, a failing child leaves that of the loops it
has open. -/
theorem currentItem_of_failed (hw : Watched (itemWatch σ) ChangesItem render) {level : Nat}
    (below : ∀ lower < level, render.GivesItemBack lower) {site : Site} {template : String}
    {data : ViewData} {s t : RenderState σ} {failure : Failure} (hs : CachesTidily s)
    (failed : (render.renderChild (render.renderWithin level) site template data).run s =
      (.error failure, t)) :
    ∃ opened, render.LeavesOpen level site template data s opened ∧
      t.session.currentItem = itemInside opened s.session.currentItem := by
  cases ran : render.childRun (render.renderWithin level) site template data s with
  | none =>
      obtain ⟨_, unchanged⟩ := renderChild_of_childRun_eq_none ran
      rw [unchanged] at failed
      cases failed
      exact ⟨[], .inl ⟨ran, rfl⟩, rfl⟩
  | some outcome =>
      obtain ⟨result, stop⟩ := outcome
      cases result with
      | error fault =>
          obtain ⟨opened, same, current⟩ := currentItem_of_stopped hw below hs ran
          rw [renderChild_of_fault ran] at failed
          cases failed
          exact ⟨opened, .inr ⟨fault, stop, ran, same⟩, current⟩
      | ok output =>
          -- a child that ran to its end has closed its loops, so its render does not fail
          have disciplined := renderWithin_disciplined hw level fun _ lower hlower =>
            restoresItem_iff.mpr (below lower hlower)
          have ended := childRun_disciplined disciplined
            (⟨sound_itemWatch.mpr hs, rfl, fun _ => rfl⟩ :
              Steady (itemWatch σ) ChangesItem s.session.loops.frames s.session.currentItem s) ran
          rw [renderChild_of_output ran] at failed
          simp only [afterChild, Session.leave, verify_of_frames_eq ended.frames] at failed
          cases failed

/-- Where children of lower levels give the item back, those of a level do so exactly if they stop
on it. -/
theorem givesItemBack_iff_stopsOnItem (hw : Watched (itemWatch σ) ChangesItem render) {level : Nat}
    (below : ∀ lower < level, render.GivesItemBack lower) :
    render.GivesItemBack level ↔ render.StopsOnItem level := by
  constructor
  · intro gives site template data s stop fault opened hs ran same
    obtain ⟨opened', same', current⟩ := currentItem_of_stopped hw below hs ran
    have left := gives site template data s _ _ hs (renderChild_of_fault ran)
    have unique : opened' = opened := List.append_cancel_right (same'.symm.trans same)
    rw [← unique, ← current]
    exact left
  · intro stops site template data s t failure hs failed
    obtain ⟨opened, ⟨-, rfl⟩ | ⟨fault, stop, ran, same⟩, current⟩ :=
      currentItem_of_failed hw below hs failed
    · exact current
    · exact current.trans (stops site template data s stop fault opened hs ran same)

/-- In templates that change the current item by loop directives only, failing children give it back
up to a level exactly if no child up to that level is stopped by a fault inside a `@loop` of its own
that has moved on to another item. Where the children below do, a failing child leaves as the
current item that of the loops it has open, and what was current before if none of them is a `@loop`
that has moved on. -/
theorem failed_children_give_item_back_iff
    (functions : ∀ name ∈ render.host.functions, ¬ ChangesItem name)
    (pages : ∀ template page, render.library.compile template = .ok page →
      Tidy ChangesItem page.body) (levels : Nat) :
    ((∀ level ≤ levels, render.GivesItemBack level) ↔
      ∀ level ≤ levels, render.StopsOnItem level) ∧
    ∀ level, (∀ lower < level, render.GivesItemBack lower) →
      ∀ site template data (s t : RenderState σ) failure, CachesTidily s →
        (render.renderChild (render.renderWithin level) site template data).run s =
          (.error failure, t) →
        ∃ opened, render.LeavesOpen level site template data s opened ∧
          t.session.currentItem = itemInside opened s.session.currentItem := by
  have hw := watched_itemWatch functions pages
  refine ⟨⟨fun gives level hlevel => ?_, fun stops level => ?_⟩,
    fun level below site template data s t failure hs => currentItem_of_failed hw below hs⟩
  · have below : ∀ lower < level, render.GivesItemBack lower :=
      fun lower hlower => gives lower (hlower.le.trans hlevel)
    exact (givesItemBack_iff_stopsOnItem hw below).mp (gives level hlevel)
  · induction level using Nat.strong_induction_on with
    | _ level ih =>
        intro hlevel
        have below : ∀ lower < level, render.GivesItemBack lower :=
          fun lower hlower => ih lower hlower (hlower.le.trans hlevel)
        exact (givesItemBack_iff_stopsOnItem hw below).mpr (stops level hlevel)

def stoppingLoop : Fields String :=
  [("p", "@loop($a as $x){{ x.y() }}@endloop")]

def isStoppingLoop : List Statement → Bool
  | [.forEach (some item) (.call _ push [.named _ items, .constant _ (.text pushKind false)])
      [.set opened (.call _ step [.named _ next, .constant _ (.text stepKind false)]),
        .echo (.apply _ (.field (.named _ called) _) [])] [],
      .set closed (.call _ pop [.constant _ (.text popKind false)])] =>
    [item, next, called] = ["x", "x", "x"] ∧ items = "a" ∧
    [opened, closed] = ["blade_loop", "blade_loop"] ∧
      [push, step, pop] = [PageFunction.loopPush, .loopNext, .loopPop].map PageFunction.name ∧
      [pushKind, stepKind, popKind] = ["loop", "loop", "loop"]
  | _ => false

theorem tidy_of_isStoppingLoop {statements : List Statement}
    (h : isStoppingLoop statements = true) :
    Tidy ChangesItem statements := by
  unfold isStoppingLoop at h
  split at h
  · simp only [List.cons.injEq, and_true, List.map_cons, List.map_nil, decide_eq_true_eq] at h
    obtain ⟨⟨rfl, rfl, rfl⟩, rfl, ⟨rfl, rfl⟩, ⟨rfl, rfl, rfl⟩, rfl, rfl, rfl⟩ := h
    have visible : ∀ name ∈ ["a", "x", "blade_loop"], ¬ ChangesItem name := by
      simp only [ChangesItem]
      decide +kernel
    show Tidy ChangesItem
      (.forEach _ (.call _ _ ([Expression.named _ "a"] ++ [_])) (_ :: [.echo _]) [] :: _ :: [])
    refine .loop .loop (visible _ (by simp)) (visible _ (by simp)) ⟨visible _ (by simp), trivial⟩
      (.echo ⟨visible _ (by simp), trivial⟩ .nil) .nil
  · cases h

theorem tidy_stoppingLoop (template : String) (page : Page)
    (compiled : (ofTemplates stoppingLoop).library.compile template = .ok page) :
    Tidy ChangesItem page.body := by
  by_cases known : template = "p"
  · subst known
    have shape : ((ofTemplates stoppingLoop).library.compile "p").toOption.all
        (isStoppingLoop ·.body) = true := by
      decide +kernel
    rw [compiled] at shape
    exact tidy_of_isStoppingLoop shape
  · have missing : (ofTemplates stoppingLoop).library.loader.load template = .ok none := by
      simp [ofTemplates, Loader.ofTemplates, stoppingLoop, Fields.find?_cons, known]
    simp [Library.compile, missing] at compiled
    cases compiled

theorem stopsOnItem_zero : render.StopsOnItem 0 := by
  intro site template data s stop fault opened _ ran same
  obtain ⟨merged, -, -, stopped⟩ := childRun_eq_some_iff.mp ran
  have kept : stop = s.entered := congrArg Prod.snd stopped.symm
  have none : opened = [] := by simpa [kept, RenderState.entered] using same
  rw [none]
  rfl

def stoppingStart : RenderState Unit where
  session := { currentItem := .text "before" }
  host := ()
  compiled := []

def stoppingSite : Site :=
  ⟨"t", { given := [] }⟩

def stoppingData : ViewData :=
  [("a", .list [.text "first"])]

def stoppingChild : Except Failure String × RenderState Unit :=
  ((ofTemplates stoppingLoop).renderChild ((ofTemplates stoppingLoop).renderWithin 1)
    stoppingSite "p"
    stoppingData).run stoppingStart

theorem stoppingLoop_leaves_item :
    (∀ level ≤ 0, (ofTemplates stoppingLoop).GivesItemBack level) ∧
    ∃ failure opened, stoppingChild.1 = .error failure ∧
      (ofTemplates stoppingLoop).LeavesOpen 1 stoppingSite "p" stoppingData stoppingStart opened ∧
      stoppingChild.2.session.currentItem = itemInside opened (.text "before") ∧
      stoppingChild.2.session.currentItem.text? = some "first" := by
  have functions : ∀ name ∈ (ofTemplates stoppingLoop).host.functions, ¬ ChangesItem name :=
    fun _ hmem => nomatch hmem
  obtain ⟨gives, leaves⟩ := failed_children_give_item_back_iff functions tidy_stoppingLoop 0
  have back : ∀ level ≤ 0, (ofTemplates stoppingLoop).GivesItemBack level :=
    gives.mpr fun level none => Nat.le_zero.mp none ▸ stopsOnItem_zero
  have uncached : CachesTidily stoppingStart := fun _ _ hmem => nomatch hmem
  obtain ⟨fails, item⟩ : stoppingChild.1.toOption = none ∧
      stoppingChild.2.session.currentItem.text? = some "first" := by
    decide +kernel
  cases ran : stoppingChild.1 with
  | ok output =>
      rw [ran] at fails
      cases fails
  | error failure =>
      obtain ⟨opened, left, current⟩ :=
        leaves 1 (fun lower few => back lower (Nat.le_of_lt_succ few))
        stoppingSite "p" stoppingData stoppingStart stoppingChild.2 failure uncached
          (Prod.ext ran rfl)
      exact ⟨back, failure, opened, rfl, left, current, item⟩

end ThemeTemplates.Render
