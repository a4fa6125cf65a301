import ThemeTemplates.Proofs.Data.Alike
import ThemeTemplates.Proofs.Render.LoopVariable
import ThemeTemplates.Proofs.Render.Origin

/-!
# What a partial inherits

A variable of the caller that neither the defaults of a partial nor the data it is rendered with set
reaches the partial as site data. What can be read off it there, and off what the caller has, is the
same for values that data can hold.
-/

namespace ThemeTemplates

theorem Fields.find?_reverse_eq_none {α : Type} {fields : Fields α} {name : String}
    (new : name ∉ fields.keys) : Fields.find? fields.reverse name = none :=
  Fields.find?_eq_none fun field hmem same =>
    new (List.mem_map.mpr ⟨field, List.mem_reverse.mp hmem, same⟩)

namespace Render

section

variable {σ : Type} {render : Render σ} {call : Invocation (RenderState σ)} {template name : String}
  {data : ViewData} {run : PageRun σ} {value : Value}

theorem Opens.find?_given (opens : render.Opens call template data run)
    (inherited : Scope.isInherited name = true)
    (undefaulted : ∀ layer, render.defaults template = .ok layer → name ∉ Fields.keys layer)
    (unset : name ∉ Fields.keys data) (held : call.site.scope.find? name = some value)
    (isData : value.isData = true) :
    Scope.find? { given := run.given } name = some value.throughData := by
  obtain ⟨supplied, room, fetched⟩ := opens
  obtain ⟨layer, defaults, merged⟩ := View.find?_resolveChild supplied
  rw [Render.find?_given inherited, merged, Fields.find?_reverse_eq_none unset,
    Fields.find?_reverse_eq_none (undefaulted layer defaults), Option.none_or, Option.none_or,
    Scope.find?_inheritable, if_pos inherited, Scope.data?, held]
  simp only [Option.bind_some, isData, if_true, Option.map_some]
  rfl

/-- A variable that a partial inherits. The render of the partial comes to what its page does with
the variables it is given. If data can hold the value of the variable, then along every path of
attributes and indices as much is defined for the partial as for its caller, and what looks the same
as data prints the same. No other value is read alike by the two. -/
theorem inherited_read_alike (opens : render.Opens call template data run)
    (inherited : Scope.isInherited name = true)
    (undefaulted : ∀ layer, render.defaults template = .ok layer → name ∉ Fields.keys layer)
    (unset : name ∉ Fields.keys data) (held : call.site.scope.find? name = some value)
    (isData : value.isData = true) :
    (∀ levels, levels = run.levels + 1 →
      ((render.renderChild (render.renderWithin levels) call.site template data).run call.found).1 =
          run.result render call.found.session.loops.checkpoint ∧
        ((render.renderChild (render.renderWithin levels) call.site template data).run
          call.found).2.host = (run.stop render).2.host) ∧
    ∃ child, Scope.find? { given := run.given } name = some child ∧
      child = Value.ofData value.toData ∧
      (value.Portable → ∀ path, (child.follow path).isDefined = (value.follow path).isDefined ∧
        ((value.follow path).Unaltered →
          (child.follow path).print = (value.follow path).print)) ∧
      (value.Composed → value.Alike child → value.Portable) :=
  ⟨fun _ => renderChild_eq_of_opens opens, value.throughData,
    opens.find?_given inherited undefaulted unset held isData, rfl, Value.Portable.read_throughData,
    Value.portable_of_alike⟩

end

def titledPosts : Value :=
  .list [.map [(.ofString "title", .ofString "A & B")], .none]

def postsPage : Page :=
  ⟨"p", [.echo (.named 1 "banner"),
    .echo (.field (.element (.named 1 "posts") (.constant 1 (.ofInt 0))) "title")]⟩

/-- The call of the page by one that was given the posts and has set the banner to markup. -/
def postsCall : Invocation (RenderState Unit) where
  site :=
    { template := "t"
      scope :=
        { frames := [{ locals := [("banner", .markup "<b>")] }]
          given := [("posts", titledPosts)] } }
  name := "__render_child"
  args := [.ofString "p"]
  found := { session := { currentItem := .null }, host := (), compiled := [("p", postsPage)] }

def postsRendered : Except Failure String :=
  (((ofTemplates []).renderChild ((ofTemplates []).renderWithin 1) postsCall.site "p" []).run
    postsCall.found).1

theorem postsCall_opens : ∃ run, (ofTemplates []).Opens postsCall "p" [] run ∧ run.levels = 0 :=
  ⟨⟨"p", postsPage, context _, _, 0⟩, .intro rfl (by decide) rfl, rfl⟩

theorem titledPosts_read_alike : ∃ run child, (ofTemplates []).Opens postsCall "p" [] run ∧
    postsRendered = run.result (ofTemplates []) LoopStack.empty.checkpoint ∧
    Scope.find? { given := run.given } "posts" = some child ∧
    (child.follow [.ofInt 0, .ofString "title"]).print = "A &amp; B" := by
  obtain ⟨run, opens, levels⟩ := postsCall_opens
  have noDefaults : ∀ layer, DefaultsProvider.none "p" = .ok layer →
      "posts" ∉ Fields.keys layer := by
    rintro _ ⟨⟩
    exact List.not_mem_nil
  obtain ⟨rendered, child, found, -, alike, -⟩ :=
    inherited_read_alike opens (by decide +kernel) noDefaults List.not_mem_nil rfl rfl
  have portable : titledPosts.Portable := ⟨⟨List.pairwise_singleton _ _, rfl, trivial, trivial⟩,
    trivial, trivial⟩
  obtain ⟨-, printed⟩ := alike portable [.ofInt 0, .ofString "title"]
  refine ⟨run, child, opens, (rendered 1 (by rw [levels])).1, found, (printed ?_).trans ?_⟩
  · exact nofun
  · decide +kernel

/-- Markup is text for the partial. -/
theorem markedBanner_read_differently :
    Scope.isInherited "banner" = true ∧
    postsCall.site.scope.find? "banner" = some (.markup "<b>") ∧
    (Value.markup "<b>").isData = true ∧ (Value.markup "<b>").print = "<b>" ∧
    postsRendered = .ok "&lt;b&gt;A &amp; B" := by
  refine ⟨by decide +kernel, rfl, rfl, rfl, rfl⟩

end Render

end ThemeTemplates
