import ThemeTemplates.Proofs.Render.Origin

/-!
# Failures surface as they are

A failure at the end of a chain of partials comes out of the root render as it was met there. One
that a host was told of and absorbed is gone: from then on the slot is empty until a call keeps a
new one.
-/

namespace ThemeTemplates

open Evaluation

variable {σ : Type}

def RenderState.fresh (item : Data) (host : σ) (compiled : Fields Page) : RenderState σ where
  session := { currentItem := item }
  host := host
  compiled := compiled

namespace Render

def Empty (s : RenderState σ) : Prop :=
  s.session.failure = none

theorem Empty.idle {s : RenderState σ} (h : Empty s) : Idle (fun _ _ => True) s.session.depth s :=
  ⟨⟨rfl, fun _ _ _ => trivial⟩, h⟩

theorem settles_everything (render : Render σ) (levels : Nat) :
    (render.renderWithin levels).Settles fun _ _ => True :=
  renderWithin_settles (fun _ _ _ => trivial) levels

theorem ready_root (page : Page) (data : ViewData) (item : Data) (host : σ)
    (compiled : Fields Page) :
    Ready (fun _ _ => True) (.root page data (.fresh item host compiled)) :=
  ⟨Empty.idle rfl, Nat.zero_add _⟩

/-- A root render fails with a failure exactly if that is what the run at the end of a chain of
partials incurs, or the page of the root leaves a loop open. Whatever has failed before that leaves
no trace: a call of a page finds the slot empty, an answered call and a page at its end leave it
empty, and so does whatever a host does, whichever partials fail in the meantime. -/
theorem failures_surface (render : Render σ) (page : Page) (data : ViewData)
    (item : Data) (host : σ) (compiled : Fields Page) :
    (∀ failure, ((render.root page data).run (.fresh item host compiled)).1 = .error failure ↔
      (∃ last, Relation.ReflTransGen (Partial render) (.root page data (.fresh item host compiled))
        last ∧
        render.Incurs last failure) ∨
      ∃ output t error,
        (PageRun.root page data (.fresh item host compiled)).stop render = (.ok output, t) ∧
        t.session.loops.verify LoopStack.empty.checkpoint = .error error ∧
        failure = .loopStack error) ∧
    (∀ run : PageRun σ, Empty run.start →
      (∀ call ∈ run.calls render, Empty call.found ∧
        ∀ value t, (run.surroundings render).answer call = (.ok value, t) → Empty t) ∧
      ∀ output t, run.stop render = (.ok output, t) → Empty t) ∧
    ∀ (levels : Nat) (site : Site) (s : RenderState σ), Empty s →
      (∀ template given,
        Empty ((render.renderChild (render.renderWithin levels) site template given).run s).2) ∧
      ∀ (α : Type) (action : HostAction σ α),
        Empty ((render.perform (render.renderWithin levels) site action).run s).2 := by
  have anyPage : ∀ template page, render.library.compile template = .ok page → True :=
    fun _ _ _ => trivial
  refine ⟨fun failure => ?_, fun run empty => ⟨fun call made => ?_, fun output t ended => ?_⟩,
    fun levels site s empty => ⟨fun template given => ?_, fun α action => ?_⟩⟩
  · exact root_eq_error_iff anyPage (ready_root page data item host compiled)
  · have settles := settles_everything render run.levels
    have keep : (run.surroundings render).Keeps (Idle (fun _ _ => True) run.start.session.depth)
        (Fault.Explained render.library) := surroundings_keep anyPage settles
    have found := Surroundings.found_of_mem_calls keep empty.idle made
    exact ⟨found.failure, fun value t answered => (keep.call call value t found answered).failure⟩
  · have left := printPage_idle anyPage (settles_everything render run.levels) run.page run.given
      empty.idle
    have same : (printPage (render.surroundings (render.renderWithin run.levels)) run.page
        run.given).run.run run.start = (.ok output, t) := ended
    rw [same] at left
    exact left.failure
  · exact (renderChild_idle (settles_everything render levels) site template given
      empty.idle).failure
  · exact (perform_idle (settles_everything render levels) site action empty.idle).failure

/-- A host that links to no page where a partial is missing, and whose menus fail. -/
def forgivingHost : Host Unit where
  paginate := fun _ => .renderChild "gone" [] fun _ => .answer ""
  navMenu := fun _ => .fail (.report "menu missing" [])

/-- A render in which the host forgives a missing partial before it fails itself, in a partial
inside a loop. -/
def forgivingRender : Render Unit where
  library := { loader := Loader.ofTemplates [], directives := Registry.builtin }
  host := forgivingHost
  defaults := DefaultsProvider.none
  view := none
  baseItem := .null

def forgivingPages : Fields Page :=
  [("inner", ⟨"inner", [.echo (.call 1 "__paginate" []),
    .echo (.call 1 "__nav_menu" [.constant 1 (.ofString "main")])]⟩)]

def outerPage : Page :=
  ⟨"outer", [.forEach (some "item") (.constant 1 (.list [.none]))
    [.conditional (.constant 1 (.bool true))
      [.echo (.call 1 "__render_child" [.constant 1 (.ofString "inner")])] []] []]⟩

theorem menu_failure_surfaces :
    ((forgivingRender.root outerPage []).run (.fresh .null () forgivingPages)).1 =
        .error (.collaborator "nav_menu" (.report "menu missing" [])) ∧
      ∃ last, Relation.ReflTransGen (Partial forgivingRender)
          (.root outerPage [] (.fresh .null () forgivingPages)) last ∧
        forgivingRender.Incurs last (.collaborator "nav_menu" (.report "menu missing" [])) := by
  have failed : ((forgivingRender.root outerPage []).run (.fresh .null () forgivingPages)).1 =
      .error (.collaborator "nav_menu" (.report "menu missing" [])) := rfl
  refine ⟨failed, ?_⟩
  rcases ((failures_surface forgivingRender outerPage [] .null () forgivingPages).1 _).mp
    failed with
    surfaced | ⟨_, _, _, _, _, unclosed⟩
  · exact surfaced
  · cases unclosed

end Render

end ThemeTemplates
