import ThemeTemplates.Proofs.Directive.Shape
import ThemeTemplates.Proofs.Page.Arity
import ThemeTemplates.Proofs.Text.Brackets
import ThemeTemplates.Render.Function

/-!
# How many arguments directives pass on

Five directives place an expression of their arguments in a call. Two of them refuse arguments that
a comma divides, so their calls have the number of arguments that the functions take. The others
place whatever they are given, and their calls have that number if no comma divides it.
-/

namespace ThemeTemplates

open Parse Token

/-! ### How many arguments functions take -/

namespace PageFunction

def most? : PageFunction → Option Nat
  | invoke => none
  | loopPush | loopNext | renderChild | can | canAny => some 2
  | loopPop | navMenu | paginate | setCurrentItem => some 1
  | _ => some 0

def Takes (function : PageFunction) (count : Nat) : Prop :=
  Render.callFunction.needed function ≤ count ∧ ∀ most ∈ function.most?, count ≤ most

end PageFunction

theorem Render.callFunction_of_not_takes {σ : Type} (render : Render σ) (renderer : Renderer σ)
    (site : Site) {function : PageFunction} {args : List Value}
    (miscounted : ¬ function.Takes args.length) :
    render.callFunction renderer site function args =
      wrongCount (callFunction.needed function) args := by
  unfold PageFunction.Takes PageFunction.most? at miscounted
  rcases args with _ | ⟨a, _ | ⟨b, _ | ⟨c, rest⟩⟩⟩ <;> cases function <;>
    first
      | rfl
      | exact absurd (by simp [callFunction.needed]) miscounted

/-! ### Refusals -/

/-- All errors of an expansion say that the arguments of a directive are malformed. -/
def Malforms {α : Type} (name : String) (args : List Char) (result : Except CompileError α) :
    Prop :=
  ∀ error, result = .error error → ∃ reason, error = .malformed name (String.ofList args) reason

section

variable {α : Type} {name : String} {args : List Char}

theorem malforms_ok (a : α) : Malforms name args (.ok a) :=
  fun _ h => nomatch h

theorem malforms_error (reason : Malformation) :
    Malforms name args (.error (.malformed name (String.ofList args) reason) :
      Except CompileError α) := by
  rintro _ ⟨⟩
  exact ⟨reason, rfl⟩

theorem Malforms.bind {β : Type} {result : Except CompileError α} (h : Malforms name args result)
    {next : α → Except CompileError β} (hnext : ∀ a, Malforms name args (next a)) :
    Malforms name args (result >>= next) := by
  cases result with
  | error error =>
      rintro _ ⟨⟩
      exact h error rfl
  | ok a => exact hnext a

theorem Malforms.ite {c : Prop} [Decidable c] {yes no : Except CompileError α}
    (hyes : Malforms name args yes) (hno : Malforms name args no) :
    Malforms name args (if c then yes else no) := by
  split
  · exact hyes
  · exact hno

theorem Iteration.malforms_ofParts (source binding : List Char) :
    Malforms name args (ofParts name args source binding) :=
  .ite (malforms_error _) (.ite (malforms_error _) (malforms_ok _))

theorem Iteration.malforms_parse : Malforms name args (parse name args) := by
  unfold parse
  split
  · exact malforms_ofParts _ _
  · exact malforms_error _

theorem Iteration.malforms_parseLoop : Malforms "loop" args (parseLoop args) := by
  refine .ite (malforms_ok _) ?_
  split
  · exact malforms_ofParts _ _
  · exact malforms_ok _

theorem PartialCall.malforms_parse : Malforms "partial" args (parse args) := by
  unfold parse
  extract_lets refuse build
  have refuses : ∀ reason, Malforms "partial" args (refuse reason) := malforms_error
  have builds : ∀ quoted data, Malforms "partial" args (build quoted data) := by
    intro quoted data
    simp only [build]
    split
    · exact refuses _
    · exact .ite (refuses _) (malforms_ok _)
  split
  · exact builds _ _
  · exact .ite (refuses _) (builds _ _)
  · exact refuses _

end

/-! ### Sources of loops -/

namespace Iteration

variable {directive : String} {args : List Char} {iteration : Iteration}

theorem source_ne_nil_of_ofParts {raw source binding : List Char}
    (h : ofParts directive raw source binding = .ok iteration) : iteration.source ≠ [] := by
  intro empty
  unfold ofParts at h
  extract_lets source' binding' refuse at h
  split at h
  · cases h
  · next kept =>
      split at h
      · cases h
      · cases h
        exact kept (List.isEmpty_iff.mpr empty)

theorem source_ne_nil_of_parse (parsed : parse directive args = .ok iteration) :
    iteration.source ≠ [] := by
  unfold parse at parsed
  split at parsed
  · exact source_ne_nil_of_ofParts parsed
  · cases parsed

theorem source_ne_nil_of_parseLoop (parsed : parseLoop args = .ok iteration) :
    iteration.source ≠ [] := by
  unfold parseLoop at parsed
  extract_lets text at parsed
  split at parsed
  · cases parsed
    decide +kernel
  · next kept =>
      split at parsed
      · exact source_ne_nil_of_ofParts parsed
      · cases parsed
        exact fun empty => kept (List.isEmpty_iff.mpr empty)

theorem CutFrom.undivided_iff {text : List Char} (cut : CutFrom text iteration) :
    Undivided (ThemeTemplates.pageExpression iteration.source) ↔ Undivided text := by
  obtain ⟨source, binding, found, bound, sourced, named⟩ := cut
  rw [undivided_pageExpression_iff, sourced]
  exact undivided_splitAs_iff found (named ▸ bound)

end Iteration

/-! ### What directives place -/

/-- The built-in directives that place an expression of their arguments in a call. -/
inductive Placing where
  | loop
  | simpleMenu
  | childPartial
  | paginate
  | setPostData
deriving DecidableEq, Repr

namespace Placing

def tags : Placing → List Char → Except CompileError (List Tag)
  | loop => Builtin.loop
  | simpleMenu => Builtin.simpleMenu
  | childPartial => Builtin.childPartial
  | paginate => Builtin.paginate
  | setPostData => Builtin.setPostData

def entry : Placing → Directive
  | loop => Builtin.iterationDirective "loop" Builtin.loop
  | simpleMenu => Builtin.iterationDirective "simplemenu" Builtin.simpleMenu
  | childPartial => Builtin.inlineDirective "partial" Builtin.childPartial
  | paginate => Builtin.inlineDirective "paginate" Builtin.paginate
  | setPostData => Builtin.inlineDirective "setpostdata" Builtin.setPostData

def checks : Placing → Bool
  | childPartial | paginate => true
  | loop | simpleMenu | setPostData => false

end Placing

/-- The tags that a directive emits around an expression it places, and the calls in them that the
expression is part of: the functions and what stands between their parentheses. -/
inductive Places : Placing → List Char → List (PageFunction × List Char) → List Tag → Prop
  | loop (iteration : Iteration) :
    Places .loop (pageExpression iteration.source)
      [(.loopPush,
        Builtin.commaSeparated (pageExpression iteration.source) (Builtin.kindLiteral .loop))]
      (Builtin.openLoop .loop iteration)
  | simpleMenu (iteration : Iteration) :
    Places .simpleMenu (pageExpression iteration.source)
      [(.navMenu, pageExpression iteration.source),
        (.loopPush, Builtin.commaSeparated
          (PageFunction.call .navMenu (pageExpression iteration.source))
          (Builtin.kindLiteral .simpleMenu))]
      (Builtin.openLoop .simpleMenu
        { iteration with source := PageFunction.call .navMenu iteration.source })
  | childPartial (name data : List Char) :
    Places .childPartial data
      [(.renderChild, Builtin.commaSeparated (encodeLiteral name) data)]
      [.echo (PageFunction.call .renderChild (Builtin.commaSeparated (encodeLiteral name) data))]
  | paginate (config : List Char) :
    Places .paginate config [(.paginate, config)] [.echo (PageFunction.call .paginate config)]
  | setPostData (item : List Char) :
    Places .setPostData item [(.setCurrentItem, item)]
      [.echo (PageFunction.call .setCurrentItem item)]

/-- What an expression that a directive places has of the arguments it comes from. -/
structure PlacedFrom (directive : Placing) (args placed : List Char) : Prop where
  undivided_iff : Undivided placed ↔ directive.checks = true ∨ Undivided (unwrap args)
  contained : Contained args → Contained placed
  nonblank : Nonblank placed

section

variable {args placed : List Char} {directive : Placing} {tags : List Tag}
  {calls : List (PageFunction × List Char)}

theorem nonblank_of_trimmed {text : List Char} (trimmed : trim text = text) (kept : text ≠ []) :
    Nonblank (pageExpression text) := by
  rw [← trimmed] at kept ⊢
  exact (nonblank_trim kept).pageExpression

theorem contained_unwrap (contained : Contained args) : Contained (pageExpression (unwrap args)) :=
  (Part.refl contained).unwrap.contained.pageExpression

theorem placed_cut {iteration : Iteration} (unchecked : directive.checks = false)
    (cut : Iteration.CutFrom (unwrap args) iteration) (kept : iteration.source ≠ []) :
    PlacedFrom directive args (pageExpression iteration.source) where
  undivided_iff := by simpa [unchecked] using cut.undivided_iff
  contained h := (cut.parts h).2.2.contained.pageExpression
  nonblank := by
    obtain ⟨source, -, -, -, sourced, -⟩ := cut
    exact nonblank_of_trimmed (by rw [sourced, trim_trim]) kept

theorem placed_whole (unchecked : directive.checks = false) (kept : unwrap args ≠ []) :
    PlacedFrom directive args (pageExpression (unwrap args)) where
  undivided_iff := by simpa [unchecked] using undivided_pageExpression_iff (unwrap args)
  contained := contained_unwrap
  nonblank := nonblank_of_trimmed (trim_unwrap args) kept

theorem placed_noFields (checks : directive.checks = true) :
    PlacedFrom directive args Builtin.noFields where
  undivided_iff := iff_of_true (undividedFrom_of_noComma (by decide) _) (.inl checks)
  contained _ := rfl
  nonblank := nonblank_of_head (by decide)

theorem loop_places (h : Builtin.loop args = .ok tags) :
    ∃ placed calls, Places .loop placed calls tags ∧ PlacedFrom .loop args placed := by
  obtain ⟨iteration, parsed, rfl⟩ := Builtin.loop_ok h
  refine ⟨_, _, .loop iteration, ?_⟩
  have kept := Iteration.source_ne_nil_of_parseLoop parsed
  rcases Iteration.cut_of_parseLoop parsed with ⟨-, ⟨empty, query⟩ | whole⟩ | cut
  · rw [query, Iteration.currentQuery, pageExpression_call]
    have onePlace : OnePlace (PageFunction.call .currentQuery (pageExpression [])) :=
      .call _ Contained.nil
    refine ⟨iff_of_true (undivided_call _ Contained.nil) (.inr ?_), fun _ => onePlace.contained, ?_⟩
    · rw [empty]
      exact undividedFrom_nil _
    · exact nonblank_of_head (by decide)
  · rw [whole]
    exact placed_whole rfl (whole ▸ kept)
  · exact placed_cut rfl cut kept

theorem simpleMenu_places (h : Builtin.simpleMenu args = .ok tags) :
    ∃ placed calls, Places .simpleMenu placed calls tags ∧ PlacedFrom .simpleMenu args placed := by
  obtain ⟨iteration, parsed, rfl⟩ := Builtin.simpleMenu_ok h
  refine ⟨_, _, .simpleMenu iteration, ?_⟩
  exact placed_cut rfl (Iteration.cut_of_parse parsed) (Iteration.source_ne_nil_of_parse parsed)

theorem childPartial_places (h : Builtin.childPartial args = .ok tags) :
    ∃ placed calls, Places .childPartial placed calls tags ∧
      PlacedFrom .childPartial args placed := by
  obtain ⟨child, parsed, rfl⟩ := Builtin.childPartial_ok h
  refine ⟨_, _, .childPartial _ _, ?_⟩
  cases given : child.data with
  | none => exact placed_noFields rfl
  | some data =>
      obtain ⟨-, -, -, -, -, kept⟩ := PartialCall.parse_ok parsed
      have piece := PartialCall.data_mem parsed given
      refine ⟨iff_of_true ?_ (.inl rfl), fun contained => ?_, ?_⟩
      · exact (undivided_pageExpression_iff data).mpr (undivided_of_mem_splitTopLevel piece)
      · exact ((Part.refl contained).unwrap.topLevelPiece piece).contained.pageExpression
      · exact nonblank_of_trimmed (uncut_of_mem_splitTopLevel piece).1 (by simpa [given] using kept)

theorem paginate_places (h : Builtin.paginate args = .ok tags) :
    ∃ placed calls, Places .paginate placed calls tags ∧ PlacedFrom .paginate args placed := by
  obtain ⟨config, single, passed, rfl⟩ := Builtin.paginate_ok h
  refine ⟨_, _, .paginate config, ?_⟩
  rcases passed with rfl | ⟨kept, rfl⟩
  · exact placed_noFields rfl
  · refine ⟨iff_of_true ?_ (.inl rfl), contained_unwrap, nonblank_of_trimmed
      (trim_unwrap args) kept⟩
    exact (undivided_pageExpression_iff _).mpr ((length_splitTopLevel_iff _).mp single)

theorem setPostData_places (h : Builtin.setPostData args = .ok tags) :
    ∃ placed calls, Places .setPostData placed calls tags ∧
      PlacedFrom .setPostData args placed := by
  obtain ⟨kept, rfl⟩ := Builtin.setPostData_ok h
  exact ⟨_, _, .setPostData _, placed_whole rfl kept⟩

/-- The calls around a placed expression that is one argument have as many arguments as their
functions take. -/
theorem Places.takes (places : Places directive placed calls tags) (onePlace : OnePlace placed) :
    ∀ call ∈ calls, ∃ count, call.1.Takes count ∧ CallsWith call.1 count (call.1.call call.2) := by
  have kindLiteral (kind : LoopKind) :
      tokensOf (Builtin.kindLiteral kind) = [.literal kind.name] := by
    simpa [tokensOf_nil] using kindLiteral_tokens kind []
  cases places with
  | loop iteration =>
      refine List.forall_mem_singleton.mpr ⟨2, ⟨le_rfl, by simp [PageFunction.most?]⟩, ?_⟩
      exact callsWith_two onePlace (.encodeLiteral _) (.inr (kindLiteral .loop))
  | simpleMenu iteration =>
      refine List.forall_mem_cons.mpr ⟨⟨1, ⟨le_rfl, by simp [PageFunction.most?]⟩, ?_⟩,
        List.forall_mem_singleton.mpr ⟨2, ⟨le_rfl, by simp [PageFunction.most?]⟩, ?_⟩⟩
      · exact callsWith_one onePlace
      · exact callsWith_two (.call _ onePlace.contained) (.encodeLiteral _)
          (.inr (kindLiteral .simpleMenu))
  | childPartial name =>
      refine List.forall_mem_singleton.mpr ⟨2, ⟨Nat.le_succ 1, by simp [PageFunction.most?]⟩, ?_⟩
      exact callsWith_two (.encodeLiteral _) onePlace (.inl (tokensOf_encodeLiteral name))
  | paginate =>
      refine List.forall_mem_singleton.mpr ⟨1, ⟨Nat.zero_le 1, by simp [PageFunction.most?]⟩, ?_⟩
      exact callsWith_one onePlace
  | setPostData =>
      refine List.forall_mem_singleton.mpr ⟨1, ⟨le_rfl, by simp [PageFunction.most?]⟩, ?_⟩
      exact callsWith_one onePlace

theorem Placing.expand_eq (directive : Placing) (args : List Char) :
    directive.entry.expand args = (directive.tags args).map printTags := by
  cases directive <;> rfl

theorem Placing.malforms (directive : Placing) (args : List Char) :
    Malforms directive.entry.name args (directive.tags args) := by
  cases directive with
  | loop => exact Iteration.malforms_parseLoop.bind fun _ => malforms_ok _
  | simpleMenu => exact Iteration.malforms_parse.bind fun _ => malforms_ok _
  | childPartial => exact PartialCall.malforms_parse.bind fun _ => malforms_ok _
  | paginate => exact .ite (malforms_error _) (malforms_ok _)
  | setPostData => exact .ite (malforms_error _) (malforms_ok _)

theorem Placing.places (directive : Placing) (h : directive.tags args = .ok tags) :
    ∃ placed calls, Places directive placed calls tags ∧ PlacedFrom directive args placed := by
  cases directive with
  | loop => exact loop_places h
  | simpleMenu => exact simpleMenu_places h
  | childPartial => exact childPartial_places h
  | paginate => exact paginate_places h
  | setPostData => exact setPostData_places h

end

/-- A directive either says that its arguments are malformed or places an expression. The expression
is a single argument if the directive checks it or no comma divides its arguments, and otherwise it
is not. If it is, the calls it is placed in have as many arguments as their functions take. -/
theorem placed_single_iff (directive : Placing) (args : List Char) :
    (∃ reason, directive.entry.expand args =
        .error (.malformed directive.entry.name (String.ofList args) reason)) ∨
      ∃ placed calls tags, directive.entry.expand args = .ok (printTags tags) ∧
        Places directive placed calls tags ∧
        (Undivided placed ↔ directive.checks = true ∨ Undivided (unwrap args)) ∧
        (Contained args → Undivided placed → ∀ call ∈ calls, ∃ count,
          call.1.Takes count ∧ CallsWith call.1 count (call.1.call call.2)) := by
  rw [directive.expand_eq]
  cases ran : directive.tags args with
  | error error =>
      obtain ⟨reason, rfl⟩ := directive.malforms args error ran
      exact .inl ⟨reason, rfl⟩
  | ok tags =>
      obtain ⟨placed, calls, places, origin⟩ := directive.places ran
      refine .inr ⟨placed, calls, tags, rfl, places, origin.undivided_iff,
        fun contained single => ?_⟩
      exact places.takes (.of_undivided (origin.contained contained) single origin.nonblank)

def listedItems : List Char :=
  "([$a, $b])".toList

theorem unwrap_listedItems : unwrap listedItems = "[$a, $b]".toList := by
  have found : unwrapOnce (trim listedItems) = some "[$a, $b]".toList := rfl
  rw [unwrap_of_some found, unwrap_of_none rfl]
  rfl

/-- A comma in brackets divides nothing, so a list is one item. -/
theorem listedItems_placed_single :
    Contained listedItems ∧ ∃ placed calls tags,
      Placing.setPostData.entry.expand listedItems = .ok (printTags tags) ∧
      Places .setPostData placed calls tags ∧ Undivided placed ∧
      ∀ call ∈ calls, ∃ count, call.1.Takes count ∧
      CallsWith call.1 count (call.1.call call.2) := by
  have contained : Contained listedItems := rfl
  have undivided : Undivided (unwrap listedItems) := by
    rw [unwrap_listedItems]
    exact (length_splitTopLevel_iff _).mp (by decide)
  refine ⟨contained, ?_⟩
  rcases placed_single_iff .setPostData listedItems with
    ⟨reason, refused⟩ | ⟨placed, calls, tags, expanded, places, iff, takes⟩
  · obtain ⟨tags, emitted⟩ : ∃ tags, Placing.setPostData.tags listedItems = .ok tags :=
      ⟨_, if_neg (by rw [unwrap_listedItems]; decide)⟩
    rw [Placing.expand_eq, emitted] at refused
    cases refused
  · have single := iff.mpr (.inr undivided)
    exact ⟨placed, calls, tags, expanded, places, single, takes contained single⟩

def twoItems : List Char :=
  "(a, b)".toList

/-- Two items are placed as they stand. Their call can be read, and it fails whenever it is made. -/
theorem twoItems_placed :
    Placing.setPostData.entry.expand twoItems =
        .ok "\x7b\x7b __set_current_item(a, b) \x7d\x7d".toList ∧
      ¬ Undivided (unwrap twoItems) ∧
      Page.parse "t" "\x7b\x7b __set_current_item(a, b) \x7d\x7d".toList =
        .ok { template := "t", body := [.echo (.call 1 PageFunction.setCurrentItem.name
          [.named 1 "a", .named 1 "b"])] } ∧
      ∀ {σ : Type} (render : Render σ) renderer site a b,
        render.callFunction renderer site .setCurrentItem [a, b] =
          Evaluation.complain .tooManyArguments := by
  have found : unwrapOnce (trim twoItems) = some "a, b".toList := rfl
  have taken : unwrap twoItems = "a, b".toList := by
    rw [unwrap_of_some found, unwrap_of_none rfl]
    rfl
  have miscounted : ¬ PageFunction.setCurrentItem.Takes 2 := fun takes =>
    absurd (takes.2 1 rfl) (by decide)
  refine ⟨?_, ?_, by with_unfolding_all rfl,
    fun render renderer site _ _ => render.callFunction_of_not_takes renderer site miscounted⟩
  · rw [Placing.expand_eq, Placing.tags, Builtin.setPostData, taken]
    rfl
  · rw [taken, ← length_splitTopLevel_iff]
    decide

end ThemeTemplates
