import ThemeTemplates.Proofs.Page.History
import ThemeTemplates.Proofs.Page.Isolation

/-!
# The variables a page was given

Setting variables, loops, blocks, inclusions and inheritance change the frames of a page, never what
it was given. Every call that a page makes comes from a scope with these variables at its bottom.
-/

namespace ThemeTemplates

/-! ### Nothing hidden -/

mutual
theorem Value.avoids_nothing : ∀ value : Value, value.Avoids fun _ => False
  | .function _ => id
  | .list items => itemsAvoid_nothing items
  | .map entries => entriesAvoid_nothing entries
  | .forState _ _ _ previous next => ⟨avoids_nothing previous, avoids_nothing next⟩
  | .undefined | .none | .bool _ | .number _ | .text _ _ | .session => trivial

theorem Value.itemsAvoid_nothing : ∀ items : List Value, Value.ItemsAvoid (fun _ => False) items
  | [] => trivial
  | item :: rest => ⟨avoids_nothing item, itemsAvoid_nothing rest⟩

theorem Value.entriesAvoid_nothing :
    ∀ entries : List (Value × Value), Value.EntriesAvoid (fun _ => False) entries
  | [] => trivial
  | (key, value) :: rest => ⟨⟨avoids_nothing key, avoids_nothing value⟩, entriesAvoid_nothing rest⟩
end

mutual
theorem Expression.avoids_nothing : ∀ e : Expression, e.Avoids fun _ => False
  | .constant _ value => value.avoids_nothing
  | .named _ _ => id
  | .list _ items => allAvoid_nothing items
  | .map _ entries => entriesAvoid_nothing entries
  | .field base _ => avoids_nothing base
  | .element base key => ⟨avoids_nothing base, avoids_nothing key⟩
  | .call _ _ args => ⟨id, allAvoid_nothing args⟩
  | .apply _ base args | .filter _ base _ args | .test _ base _ args =>
    ⟨avoids_nothing base, allAvoid_nothing args⟩
  | .not operand | .negate _ operand => avoids_nothing operand
  | .equal first others => ⟨avoids_nothing first, allAvoid_nothing others⟩
  | .sum left right | .join left right => ⟨avoids_nothing left, avoids_nothing right⟩

theorem Expression.allAvoid_nothing :
    ∀ es : List Expression, Expression.AllAvoid (fun _ => False) es
  | [] => trivial
  | e :: rest => ⟨avoids_nothing e, allAvoid_nothing rest⟩

theorem Expression.entriesAvoid_nothing :
    ∀ entries : List (Expression × Expression), Expression.EntriesAvoid (fun _ => False) entries
  | [] => trivial
  | (key, value) :: rest => ⟨⟨avoids_nothing key, avoids_nothing value⟩, entriesAvoid_nothing rest⟩
end

theorem Scope.avoids_nothing (scope : Scope) : scope.Avoids fun _ => False where
  frames := fun _ _ => ⟨fun _ value _ => ⟨value.avoids_nothing, False.elim⟩,
    fun value _ _ => ⟨value.avoids_nothing, False.elim⟩⟩
  given := fun _ value _ => ⟨value.avoids_nothing, False.elim⟩

namespace Evaluation

variable {σ α : Type}

/-- Surroundings that keep an invariant wherever these variables are given. -/
structure KeepsAmong (inv : σ → Prop) (given : Fields Value) (surroundings : Surroundings σ) :
    Prop where
  call : ∀ site name args, site.scope.given = given →
    Preserves False inv (surroundings.call site name args) fun _ => True
  load : ∀ template, Preserves False inv (surroundings.load template) fun _ => True

variable {inv : σ → Prop} {given : Fields Value} {surroundings : Surroundings σ}

theorem Preserves.anyway {evaluation : Evaluation σ α} {after after' : α → Prop}
    (h : Preserves False inv evaluation after) (always : ∀ a, after' a) :
    Preserves False inv evaluation after' :=
  Meets.weaken h (fun a _ hs => ⟨always a, hs.2⟩) fun _ _ hs => hs

theorem KeepsAmong.eval (keeps : KeepsAmong inv given surroundings) (site : Site)
    (same : site.scope.given = given) (e : Expression) :
    Preserves False inv (eval surroundings site e) fun _ => True := by
  have calls : CallsPreserve (fun _ => False) False inv surroundings site := fun name args _ _ =>
    (keeps.call site name args same).anyway Value.avoids_nothing
  exact (eval_preserves (Scope.avoids_nothing _) calls e.avoids_nothing).anyway fun _ => trivial

/-- What a page has come to where these variables are given. -/
def Progress.Given (given : Fields Value) (progress : Progress) : Prop :=
  progress.scope.given = given

theorem KeepsAmong.evalAt {running : Running σ} (keeps : KeepsAmong inv given running.surroundings)
    {progress : Progress} (within : Progress.Given given progress) (e : Expression) :
    Preserves False inv (Evaluation.eval running.surroundings (running.site progress) e) fun _ =>
      True :=
  keeps.eval (running.site progress) within e

/-- What runs pages and blocks keeps the invariant, and the variables that were given. -/
def RunsAmong (inv : σ → Prop) (given : Fields Value) (run : Runner σ) : Prop :=
  ∀ template body discarded progress, Progress.Given given progress →
    Preserves False inv (run template body discarded progress) (Progress.Given given)

theorem given_set (scope : Scope) (name : String) (value : Value) :
    (scope.set name value).given = scope.given := by
  unfold Scope.set
  split <;> rfl

theorem given_print (progress : Progress) (s : String) :
    (progress.print s).scope.given = progress.scope.given := by
  unfold Progress.print
  split <;> rfl

theorem checkDepth_keeps (scope : Scope) :
    Preserves False inv (checkDepth scope) fun _ => True := by
  unfold checkDepth
  split
  · exact Preserves.complain _
  · exact Preserves.pure trivial

theorem elements_keeps (scope : Scope) (value : Value) :
    Preserves False inv
      (match value.elements? with
        | some items => do
          checkDepth scope
          return items
        | none => complain .notIterable) fun _ => True := by
  split
  · exact Preserves.bind (checkDepth_keeps _) fun _ _ => Preserves.pure trivial
  · exact Preserves.complain _

theorem templateName_keeps (value : Value) :
    Preserves False inv (templateName value) fun _ => True := by
  unfold templateName
  split
  · exact Preserves.pure trivial
  · exact Preserves.complain _

theorem firstPage?_keeps (keeps : KeepsAmong inv given surroundings) (choices : List Value) :
    Preserves False inv (firstPage? surroundings choices) fun _ => True := by
  induction choices with
  | nil => exact Preserves.pure trivial
  | cons choice rest ih =>
      refine Preserves.bind (templateName_keeps choice) fun template _ => ?_
      have loads : Preserves False inv
          (tryCatch (some <$> surroundings.load template) fun fault =>
            if fault.cause = .missingTemplate then return none else throw fault) fun _ => True := by
        refine Meets.tryCatch (fun fault s => fault.Calm False ∧ inv s) ?_ fun fault => ?_
        · rw [map_eq_pure_bind]
          exact Preserves.bind (keeps.load template) fun page _ => Preserves.pure trivial
        · split
          · exact Meets.pure fun s hs => ⟨trivial, hs.2⟩
          · exact Meets.throw fun s hs => hs
      refine Preserves.bind loads fun page? _ => ?_
      cases page? with
      | some page => exact Preserves.pure trivial
      | none => exact ih

section

variable {running : Running σ} (keeps : KeepsAmong inv given running.surroundings)
  (runs : RunsAmong inv given running.run) {progress : Progress}

include runs in
theorem embedPage_keeps (within : Progress.Given given progress) (page : Page) :
    Preserves False inv (embedPage running progress page) (Progress.Given given) := by
  unfold embedPage
  refine Preserves.bind (checkDepth_keeps _) fun _ _ => ?_
  refine Preserves.bind (Meets.tryCatch (fun fault s => fault.Calm False ∧ inv s)
    (runs _ _ _ _ within) fun fault => ?_) fun stop hstop => ?_
  · exact Meets.throw fun s hs => ⟨hs.1.wrapping _ _, hs.2⟩
  · exact Preserves.pure ((given_print _ _).trans hstop)

include keeps runs

theorem embed_keeps (within : Progress.Given given progress) (value : Value) :
    Preserves False inv (embed running progress value) (Progress.Given given) := by
  unfold embed
  refine Preserves.bind (firstPage?_keeps keeps _) fun page? _ => ?_
  cases page? with
  | some page => exact embedPage_keeps runs within page
  | none =>
      dsimp only
      split
      · exact Preserves.pure within
      · exact Meets.throw fun s hs => ⟨Fault.calm_plain _ _, hs⟩

omit runs in
theorem inherit_keeps (within : Progress.Given given progress) (value : Value) :
    Preserves False inv (inherit running progress value) (Progress.Given given) := by
  unfold inherit
  dsimp only
  split
  · exact Preserves.complain_bind _ _
  refine Preserves.bind (templateName_keeps value) fun template _ => ?_
  split
  · exact Preserves.complain_bind _ _
  · exact Preserves.bind (keeps.load template) fun page _ => Preserves.pure within

omit keeps in
theorem callBlock_keeps (within : Progress.Given given progress) (name : String) :
    Preserves False inv (callBlock running progress name) (Progress.Given given) := by
  unfold callBlock
  split
  · exact Preserves.pure within
  split
  · exact Preserves.pure within
  · exact Preserves.bind (checkDepth_keeps _) fun _ _ =>
      Preserves.bind (runs _ _ _ _ within) fun stop hstop => Preserves.pure hstop

omit keeps runs in
theorem forItems_keeps {length depth : Nat} {bind : Value → Evaluation σ (Fields Value)}
    (binds : ∀ item, Preserves False inv (bind item) fun _ => True)
    {body : Progress → Evaluation σ Progress}
    (turns : ∀ progress, Progress.Given given progress →
      Preserves False inv (body progress) (Progress.Given given))
    (items : List Value) : ∀ index previous progress, Progress.Given given progress →
      Preserves False inv (forItems length depth bind body index previous items progress)
        (Progress.Given given) := by
  induction items with
  | nil => exact fun _ _ _ within => Preserves.pure within
  | cons item rest ih =>
      intro index previous progress within
      exact Preserves.bind (binds item) fun _ _ => Preserves.bind (turns _ within) fun _ stop =>
        ih _ _ _ stop

omit keeps runs in
theorem bindElement_keeps (name : Option String) (item : Value) :
    Preserves False inv (bindElement name item) fun _ => True := by
  unfold bindElement
  split
  · exact Preserves.pure trivial
  · exact Preserves.pure trivial
  · exact Preserves.pure trivial
  · exact Preserves.complain _

set_option linter.unusedSectionVars false in
mutual
theorem exec_keeps : ∀ (statement : Statement) (progress : Progress),
    Progress.Given given progress →
    Preserves False inv (exec running statement progress) (Progress.Given given)
  | .text s, progress, within => Preserves.pure ((given_print progress s).trans within)
  | .echo value, progress, within =>
      Preserves.bind (keeps.evalAt within value) fun _ _ =>
        Preserves.pure ((given_print progress _).trans within)
  | .set name value, progress, within =>
      Preserves.bind (keeps.evalAt within value) fun _ _ =>
        Preserves.pure ((given_set progress.scope name _).trans within)
  | .conditional condition body otherwise, progress, within => by
      refine Preserves.bind (keeps.evalAt within condition) fun _ _ => ?_
      split
      · exact execAll_keeps body progress within
      · exact execAll_keeps otherwise progress within
  | .forEach name source body otherwise, progress, within => by
      unfold exec
      refine Preserves.bind (keeps.evalAt within source) fun value _ => ?_
      refine Preserves.bind (Preserves.locate (elements_keeps progress.scope value))
        fun items _ => ?_
      refine Preserves.bind
        (forItems_keeps (fun item => Preserves.locate (bindElement_keeps name item))
        (fun progress => execAll_keeps body progress) items _ _ _ within) fun stop hstop => ?_
      split
      · exact execAll_keeps otherwise stop hstop
      · exact Preserves.pure hstop
  | .embed template, progress, within =>
      Preserves.bind (keeps.evalAt within template) fun value _ =>
        Preserves.locate (embed_keeps keeps runs within value)
  | .inherit template, progress, within =>
      Preserves.bind (keeps.evalAt within template) fun value _ =>
        Preserves.locate (inherit_keeps keeps within value)
  | .block _ name _, progress, within => Preserves.locate (callBlock_keeps runs within name)

theorem execAll_keeps : ∀ (body : List Statement) (progress : Progress),
    Progress.Given given progress →
      Preserves False inv (execAll running body progress) (Progress.Given given)
  | [], _, within => Preserves.pure within
  | statement :: rest, progress, within =>
      Preserves.bind (exec_keeps statement progress within) fun progress hprogress =>
        execAll_keeps rest progress hprogress
end

end

theorem runWithin_keeps (keeps : KeepsAmong inv given surroundings) (levels : Nat) :
    RunsAmong inv given (runWithin surroundings levels) := by
  induction levels with
  | zero => exact fun _ _ _ _ _ => Preserves.complain _
  | succ levels ih =>
      intro template body discarded progress within
      unfold runWithin
      refine Preserves.bind (execAll_keeps keeps ih body progress within) fun stop hstop => ?_
      split
      · exact Preserves.pure hstop
      · exact ih _ _ _ _ hstop

theorem printPage_keeps (page : Page) (keeps : KeepsAmong inv given surroundings) :
    Preserves False inv (printPage surroundings page given) fun _ => True :=
  Preserves.bind (runWithin_keeps keeps levelLimit _ _ _ _ rfl) fun _ _ => Preserves.pure trivial

end Evaluation

namespace Surroundings

variable {σ : Type} (surroundings : Surroundings σ)

theorem given_of_mem_calls {page : Page} {given : Fields Value} {s : σ} {call : Invocation σ}
    (made : call ∈ surroundings.calls page given s) : call.site.scope.given = given := by
  let inv : σ × List (Invocation σ) → Prop := fun state =>
    ∀ call ∈ state.2, call.site.scope.given = given
  have keeps : Evaluation.KeepsAmong inv given surroundings.noting := by
    refine ⟨fun site name args same => ?_, fun template => ?_⟩
    · rintro ⟨s, noted⟩ hs
      let call : Invocation σ := ⟨site, name, args, s⟩
      have ran : (surroundings.noting.call site name args).run.run (s, noted) =
          ((surroundings.answer call).1, ((surroundings.answer call).2, noted ++ [call])) := rfl
      have grown : ∀ t, inv (t, noted ++ [call]) := fun t =>
        List.forall_mem_append.mpr ⟨hs, List.forall_mem_singleton.mpr same⟩
      rw [ran]
      cases (surroundings.answer call).1 with
      | ok value => exact ⟨trivial, grown _⟩
      | error fault => exact ⟨fun _ _ => False.elim, grown _⟩
    · rintro ⟨s, noted⟩ hs
      have ran : (surroundings.noting.load template).run.run (s, noted) =
          (((surroundings.load template).run.run s).1,
            (((surroundings.load template).run.run s).2, noted)) := rfl
      rw [ran]
      cases ((surroundings.load template).run.run s).1 with
      | ok page => exact ⟨trivial, hs⟩
      | error fault => exact ⟨fun _ _ => False.elim, hs⟩
  have kept := Evaluation.printPage_keeps page keeps (s, []) fun _ h => nomatch h
  unfold calls at made
  generalize (Evaluation.printPage surroundings.noting page given).run.run (s, []) =
    ended at kept made
  rcases ended with ⟨_ | _, _⟩
  · exact kept.2 call made
  · exact kept.2 call made

end Surroundings

end ThemeTemplates
