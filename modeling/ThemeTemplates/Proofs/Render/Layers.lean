import ThemeTemplates.Proofs.Page.Sites
import ThemeTemplates.Proofs.Render.LoopVariable
import ThemeTemplates.Proofs.Render.NotFound
import ThemeTemplates.Proofs.Render.Requests

/-!
# The layers of view data

Under every name a template finds what the nearest layer says that knows the name: the data it is
rendered with, the defaults of its template, what its caller has set, and so on up the chain of its
callers to the root.
-/

namespace ThemeTemplates

def Fields.setting? {α : Type} (settings : Fields α) (key : String) : Option α :=
  Fields.find? settings.reverse key

namespace Composer

end Composer

namespace View

variable {provider : DefaultsProvider} {template : String} {defaults : ViewData}

theorem resolve_undefaulted {source : HostError} (failed : provider template = .error source)
    (inherited explicit : ViewData) :
    resolveRoot provider template explicit = .error (.collaborator "defaults" source) ∧
      resolveChild provider template inherited explicit =
        .error (.collaborator "defaults" source) := by
  unfold resolveRoot resolveChild DefaultsProvider.layer
  rw [failed]
  exact ⟨rfl, rfl⟩

theorem find?_resolveRoot (supplied : provider template = .ok defaults) (explicit : ViewData) :
    ∃ merged, resolveRoot provider template explicit = .ok merged ∧
      ∀ key, merged.find? key = (explicit.setting? key).or (defaults.find? key) := by
  unfold resolveRoot DefaultsProvider.layer
  rw [supplied]
  exact ⟨_, rfl, Fields.find?_overlay defaults explicit⟩

theorem resolveChild_of_defaults (supplied : provider template = .ok defaults)
    (inherited explicit : ViewData) :
    ∃ merged, resolveChild provider template inherited explicit = .ok merged ∧
      ∀ key, merged.find? key =
        (explicit.setting? key).or ((defaults.setting? key).or (inherited.find? key)) := by
  have resolved : resolveChild provider template inherited explicit =
      .ok ((inherited.overlay defaults).overlay explicit) := by
    unfold resolveChild DefaultsProvider.layer
    rw [supplied]
    rfl
  obtain ⟨layer, same, settings⟩ := find?_resolveChild resolved
  cases supplied.symm.trans same
  exact ⟨_, resolved, settings⟩

end View

def Value.held? (value : Value) : Option Data :=
  if value.isData then some value.toData else Option.none

theorem Value.held?_ofData (data : Data) :
    (Value.ofData data).held? = some (Value.ofData data).toData :=
  if_pos (isData_ofData data)

theorem Value.map_held? (value? : Option Value) :
    (value?.bind held?).map (fun data => (ofData data).toData) = value?.bind held? := by
  cases value? with
  | none => rfl
  | some value =>
      rw [Option.bind_some, held?]
      split
      · exact congrArg some (toData_ofData (canonical_toData value))
      · rfl

abbrev Layer := String → Option Value

namespace Layer

def ofRecord (data : ViewData) : Layer :=
  fun name => (data.find? name).map Value.ofData

def ofSettings (data : ViewData) : Layer :=
  fun name => (data.setting? name).map Value.ofData

def ofFrames (frames : List Frame) : Layer :=
  fun name => frames.findSome? fun frame => frame.find? name

def nearest? (layers : List Layer) (name : String) : Option Value :=
  layers.findSome? fun layer => layer name

def data? (layers : List Layer) (name : String) : Option Data :=
  (nearest? layers name).bind Value.held?

variable {layer : Layer} {layers : List Layer} {name : String}

theorem nearest?_cons (layer : Layer) (layers : List Layer) (name : String) :
    nearest? (layer :: layers) name = (layer name).or (nearest? layers name) := by
  unfold nearest?
  rw [List.findSome?_cons]
  cases layer name <;> rfl

theorem data?_cons (layer : Layer) (layers : List Layer) (name : String) :
    data? (layer :: layers) name = (layer name).elim (data? layers name) Value.held? := by
  unfold data?
  rw [nearest?_cons]
  cases layer name <;> rfl

theorem data?_ofSettings (data : ViewData) (layers : List Layer) (name : String) :
    data? (ofSettings data :: layers) name =
      ((data.setting? name).map fun value => (Value.ofData value).toData).or
        (data? layers name) := by
  rw [data?_cons, ofSettings]
  cases data.setting? name with
  | none => rfl
  | some value => exact Value.held?_ofData value

end Layer

theorem Scope.find?_start (given : Fields Value) (name : String) :
    Scope.find? { given } name = given.find? name := by
  simp [Scope.find?, Frame.find?]

theorem Scope.data?_eq (scope : Scope) (name : String) :
    scope.data? name =
      (Layer.ofFrames scope.frames name).elim (Scope.data? { given := scope.given } name)
        Value.held? := by
  unfold data?
  rw [Scope.find?_start, Scope.find?, Layer.ofFrames]
  cases scope.frames.findSome? fun frame => frame.find? name <;> rfl

theorem Render.data?_context {name : String} (apart : name ≠ sessionVariable) (data : ViewData) :
    Scope.data? { given := context data } name =
      (data.find? name).map fun value => (Value.ofData value).toData := by
  rw [Scope.data?, Render.find?_context apart]
  cases data.find? name with
  | none => rfl
  | some value => exact Value.held?_ofData value

theorem Render.find?_context_session (data : ViewData) :
    (context data).find? sessionVariable = some .session := by
  simp [context, Fields.find?_insert]

/-! ### Chains of partials -/

structure Link where
  explicit : ViewData
  defaults : ViewData
  /-- The frames of its caller where it is rendered. -/
  frames : List Frame

/-- The layers in which a template looks for a name, the nearest first; `base` are those of the
root. What is not inherited is known to no caller. -/
def Link.layers (name : String) (base : List Layer) : List Link → List Layer
  | [] => base
  | link :: outer =>
    .ofSettings link.explicit :: .ofSettings link.defaults ::
      if Scope.isInherited name then .ofFrames link.frames :: layers name base outer else []

namespace Render

variable {σ : Type} {render : Render σ} {root run : PageRun σ} {links : List Link} {name : String}

/-- The partials through which a run is reached from a root, the deepest first. -/
inductive Chain (render : Render σ) (root : PageRun σ) : List Link → PageRun σ → Prop
  | root : Chain render root [] root
  | child {links : List Link} {outer inner : PageRun σ} {call : Invocation (RenderState σ)}
    {s : RenderState σ} {explicit defaults : ViewData} (outside : Chain render root links outer)
    (made : call ∈ outer.calls render)
    (requested : Requests render outer.levels call s inner.template explicit)
    (opens : render.Opens { call with found := s } inner.template explicit inner)
    (below : outer.levels = inner.levels + 1)
    (supplied : render.defaults inner.template = .ok defaults) :
    Chain render root (⟨explicit, defaults, call.site.scope.frames⟩ :: links) inner

section

variable {call : Invocation (RenderState σ)} {template : String} {explicit defaults : ViewData}

theorem Opens.given_eq (opens : render.Opens call template explicit run) :
    ∃ merged,
      View.resolveChild render.defaults template call.site.scope.inheritable explicit = .ok merged ∧
      run.given = context merged := by
  obtain ⟨resolved, -, -⟩ := opens
  exact ⟨_, resolved, rfl⟩

/-- What a partial finds under a name: what its own two layers have, or else its caller. -/
theorem Opens.data?_given (opens : render.Opens call template explicit run)
    (supplied : render.defaults template = .ok defaults) (apart : name ≠ sessionVariable) :
    Scope.data? { given := run.given } name =
      ((explicit.setting? name).map fun value => (Value.ofData value).toData).or
        (((defaults.setting? name).map fun value => (Value.ofData value).toData).or
          (if Scope.isInherited name then call.site.scope.data? name else none)) := by
  obtain ⟨merged, resolved, given⟩ := opens.given_eq
  obtain ⟨layer, same, settings⟩ := View.find?_resolveChild resolved
  cases supplied.symm.trans same
  have inherited : (call.site.scope.inheritable.find? name).map
      (fun data => (Value.ofData data).toData) =
      if Scope.isInherited name then call.site.scope.data? name else none := by
    rw [Scope.find?_inheritable]
    split
    · exact Value.map_held? _
    · rfl
  rw [given, Render.data?_context apart, settings, Option.map_or, Option.map_or, inherited]
  rfl

end

theorem InProgress.chain {n : Nat} (within : InProgress render root n run) :
    ∃ links : List Link, links.length = n ∧ Chain render root links run := by
  induction within with
  | root => exact ⟨[], rfl, .root⟩
  | child _ made requested opens below ih =>
      obtain ⟨links, rfl, chain⟩ := ih
      obtain ⟨_, resolved, -⟩ := opens.given_eq
      obtain ⟨defaults, supplied, -⟩ := View.find?_resolveChild resolved
      exact ⟨_, rfl, .child chain made requested opens below supplied⟩

theorem Chain.data?_given (chain : Chain render root links run) (apart : name ≠ sessionVariable)
    {base : List Layer} (begun : Scope.data? { given := root.given } name = Layer.data? base name) :
    Scope.data? { given := run.given } name = Layer.data? (Link.layers name base links) name := by
  induction chain with
  | root => exact begun
  | @child _ _ _ call _ _ _ _ made _ opens _ supplied ih =>
      rw [opens.data?_given supplied apart, Link.layers, Layer.data?_ofSettings,
        Layer.data?_ofSettings]
      split
      · rw [Layer.data?_cons, Scope.data?_eq, Surroundings.given_of_mem_calls _ made, ih]
      · rfl

/-- Every variable that a template begins with has data, but for the handle of the render. -/
theorem Chain.given_eq {page : Page} {data : ViewData} {start : RenderState σ}
    (chain : Chain render (.root page data start) links run) :
      ∃ data, run.given = context data := by
  cases chain with
  | root => exact ⟨data, rfl⟩
  | child _ _ _ opens _ _ =>
      obtain ⟨merged, -, given⟩ := opens.given_eq
      exact ⟨merged, given⟩

end Render

namespace Engine

open Render

variable {σ : Type} {engine : Engine σ} {template : String} {data : ViewData} {root : PageRun σ}

/-- The layers of a root render: its data, the defaults of its template and the post of the host. -/
def layers (engine : Engine σ) (data defaults : ViewData) : List Layer :=
  [.ofSettings data, .ofRecord defaults,
    .ofRecord [(postVariable, engine.host.currentPost engine.hostState)]]

theorem find?_rootData {merged : ViewData} (resolved : engine.rootData template data = .ok merged) :
    ∃ defaults, engine.defaults template = .ok defaults ∧
      ∀ name, (merged.find? name).map Value.ofData = Layer.nearest?
        (engine.layers data defaults) name := by
  unfold rootData at resolved
  cases supplied : engine.defaults template with
  | error source =>
      rw [(View.resolve_undefaulted supplied [] data).1] at resolved
      cases resolved
  | ok defaults =>
      obtain ⟨own, rooted, settings⟩ := View.find?_resolveRoot supplied data
      refine ⟨defaults, rfl, fun name => ?_⟩
      have layered : Layer.nearest? (engine.layers data defaults) name =
          ((own.find? name).or (if name = postVariable then
            some (engine.host.currentPost engine.hostState) else none)).map Value.ofData := by
        rw [settings, layers, Layer.nearest?_cons, Layer.nearest?_cons, Layer.nearest?_cons]
        simp only [Layer.nearest?, List.findSome?_nil, Option.or_none, Layer.ofSettings,
          Layer.ofRecord, Fields.find?_cons, Fields.find?_nil, Option.map_or, Option.or_assoc]
      rw [rooted] at resolved
      rw [layered]
      simp only [bind, Except.bind, pure, Except.pure] at resolved
      split at resolved
      · next posted =>
          cases resolved
          by_cases same : name = postVariable
          · subst same
            obtain ⟨post, found⟩ := Option.isSome_iff_exists.mp posted
            rw [found, Option.some_or]
          · rw [if_neg same, Option.or_none]
      · next unposted =>
          cases resolved
          rw [Fields.find?_insert]
          by_cases same : name = postVariable
          · subst same
            have absent : own.find? postVariable = none := by
              simpa [Fields.contains] using unposted
            rw [absent, Option.none_or]
          · rw [if_neg same, if_neg same, Option.or_none]

theorem Begins.given_eq (begins : engine.Begins template data root) :
    ∃ page merged compiled, engine.rootData template data = .ok merged ∧
      root = .root page merged (engine.beginning compiled) := by
  obtain ⟨-, resolved⟩ := begins
  exact ⟨_, _, _, resolved, rfl⟩

theorem Begins.find?_given (begins : engine.Begins template data root) :
    ∃ defaults, engine.defaults template = .ok defaults ∧
      ∀ name, name ≠ sessionVariable →
        Scope.find? { given := root.given } name = Layer.nearest?
          (engine.layers data defaults) name := by
  obtain ⟨page, merged, compiled, resolved, rfl⟩ := begins.given_eq
  obtain ⟨defaults, supplied, settings⟩ := find?_rootData resolved
  exact ⟨defaults, supplied, fun name apart => (find?_context apart merged).trans (settings name)⟩

end Engine

end ThemeTemplates
