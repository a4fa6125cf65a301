import ThemeTemplates.Proofs.Page.Contract

/-!
# Pages in like surroundings

One page run in two surroundings. If functions and other pages answer the same in both and keep the
states related, so does the page: both runs yield the same, or the same fault stops them. The rules
follow the combinators that evaluations are written with, and the inductions the parts of a page.
-/

namespace ThemeTemplates.Evaluation

variable {σ τ α β : Type}

/-- How the states of two runs of the same code are related while they go on, and where a fault
stops both of them. What the evaluator makes of a fault keeps that relation. -/
structure Companion (σ τ : Type) where
  related : σ → τ → Prop
  stopped : Fault → σ → τ → Prop
  complaint : ∀ {s r}, related s r → ∀ complaint, stopped (Fault.ofComplaint complaint) s r
  located : ∀ {fault s r}, stopped fault s r → ∀ place, stopped (fault.located place) s r
  wrapping : ∀ {fault s r}, stopped fault s r → ∀ complaint,
    stopped (.wrapping (.complaint complaint) none fault) s r
  /-- A search for a template is given up with a fault of its own. -/
  missing : ∀ {fault s r}, stopped fault s r → fault.cause = .missingTemplate →
    stopped (.plain .missingTemplate none) s r

namespace Companion

variable (c : Companion σ τ)

/-- Two runs end with the same value or with the same fault. -/
inductive Ends (after : α → σ → τ → Prop) : Except Fault α × σ → Except Fault α × τ → Prop
  | value {a : α} {s : σ} {r : τ} (related : after a s r) : Ends after (.ok a, s) (.ok a, r)
  | fault {fault : Fault} {s : σ} {r : τ} (stopped : c.stopped fault s r) :
    Ends after (.error fault, s) (.error fault, r)

theorem Ends.weaken {c : Companion σ τ} {after after' : α → σ → τ → Prop}
    {one : Except Fault α × σ} {two : Except Fault α × τ} (h : c.Ends after one two)
    (weaker : ∀ a s r, after a s r → after' a s r) : c.Ends after' one two := by
  cases h with
  | value related => exact .value (weaker _ _ _ related)
  | fault stopped => exact .fault stopped

/-- From related states two evaluations end alike, with states that are related as `after` says. -/
def Accompanies (first : Evaluation σ α) (second : Evaluation τ α) (after : α → σ → τ → Prop) :
    Prop :=
  ∀ s r, c.related s r → c.Ends after (first.run.run s) (second.run.run r)

/-- From related states two evaluations end alike and keep the states related. -/
def Agree (first : Evaluation σ α) (second : Evaluation τ α) : Prop :=
  c.Accompanies first second fun _ => c.related

variable {c}

protected theorem Agree.pure (value : α) :
    c.Agree (Pure.pure value : Evaluation σ α) (Pure.pure value) :=
  fun _ _ related => .value related

protected theorem Agree.complain (complaint : Complaint) :
    c.Agree (Evaluation.complain complaint : Evaluation σ α) (Evaluation.complain complaint) :=
  fun _ _ related => .fault (c.complaint related complaint)

protected theorem Agree.complain_bind (complaint : Complaint) (next : α → Evaluation σ β)
    (next' : α → Evaluation τ β) :
    c.Agree (Evaluation.complain complaint >>= next) (Evaluation.complain complaint >>= next') :=
  fun _ _ related => .fault (c.complaint related complaint)

theorem Accompanies.bind {first : Evaluation σ α} {second : Evaluation τ α}
    {next : α → Evaluation σ β} {next' : α → Evaluation τ β} {between : α → σ → τ → Prop}
    {after : β → σ → τ → Prop} (h : c.Accompanies first second between)
    (hnext : ∀ value s r, between value s r →
      c.Ends after ((next value).run.run s) ((next' value).run.run r)) :
    c.Accompanies (first >>= next) (second >>= next') after := by
  intro s r related
  rw [run_bind, run_bind]
  have ended := h s r related
  generalize first.run.run s = one, second.run.run r = two at ended
  cases ended with
  | value kept => exact hnext _ _ _ kept
  | fault stopped => exact .fault stopped

protected theorem Agree.bind {first : Evaluation σ α} {second : Evaluation τ α}
    {next : α → Evaluation σ β} {next' : α → Evaluation τ β} (h : c.Agree first second)
    (hnext : ∀ value, c.Agree (next value) (next' value)) :
    c.Agree (first >>= next) (second >>= next') :=
  Accompanies.bind h fun value s r related => hnext value s r related

protected theorem Agree.locate {first : Evaluation σ α} {second : Evaluation τ α}
    (h : c.Agree first second) (template : String) (line : Nat) :
    c.Agree (Evaluation.locate template line first) (Evaluation.locate template line second) := by
  intro s r related
  unfold Evaluation.locate
  rw [run_tryCatch, run_tryCatch]
  have ended := h s r related
  generalize first.run.run s = one, second.run.run r = two at ended
  cases ended with
  | value kept => exact .value kept
  | fault stopped => exact .fault (c.located stopped _)

end Companion

open Companion

/-- Two surroundings in which functions and pages answer alike. A page that is not to be had leaves
the states related, so that another can be looked for. -/
structure AnswersAlike (c : Companion σ τ) (first : Surroundings σ) (second : Surroundings τ) :
    Prop where
  functions : second.isFunction = first.isFunction
  call : ∀ site name args, c.Agree (first.call site name args) (second.call site name args)
  load : ∀ template, c.Agree (first.load template) (second.load template)
  searching : ∀ template s r, c.related s r →
    c.related ((first.load template).run.run s).2 ((second.load template).run.run r).2

section

variable {c : Companion σ τ} {first : Surroundings σ} {second : Surroundings τ}
  (alike : AnswersAlike c first second)

/-! ### Expressions -/

theorem applyFilter_agree (name : String) (value : Value) (args : List Value) :
    c.Agree (applyFilter name value args) (applyFilter name value args) := by
  unfold applyFilter
  split
  · split
    · exact Agree.pure _
    · exact Agree.complain _
  · split
    · exact Agree.pure _
    · exact Agree.complain _
  · exact Agree.complain _

theorem applyTest_agree (name : String) (value : Value) (args : List Value) :
    c.Agree (applyTest name value args) (applyTest name value args) := by
  unfold applyTest
  simp only
  split
  · split
    · exact Agree.pure _
    · exact Agree.complain _
  · split
    · exact Agree.pure _
    · exact Agree.complain _
  · exact Agree.complain _

include alike

theorem resolve?_alike (scope : Scope) (name : String) :
    resolve? second scope name = resolve? first scope name := by
  unfold resolve?
  rw [alike.functions]

theorem applyValue_agree (site : Site) (value : Value) (args : List Value) :
    c.Agree (applyValue first site value args) (applyValue second site value args) := by
  cases value with
  | function name => exact alike.call site name args
  | _ => exact Agree.complain _

set_option linter.unusedSectionVars false

variable (site : Site)

mutual
theorem eval_agree : ∀ e : Expression, c.Agree (eval first site e) (eval second site e)
  | .constant _ value => Agree.pure _
  | .named _ name => by
      unfold eval
      rw [resolve?_alike alike]
      exact Agree.pure _
  | .list _ items => Agree.bind (evalAll_agree items) fun _ => Agree.pure _
  | .map _ entries => Agree.bind (evalEntries_agree entries) fun _ => Agree.pure _
  | .field base _ => Agree.bind (eval_agree base) fun _ => Agree.pure _
  | .element base key =>
      Agree.bind (eval_agree base) fun _ => Agree.bind (eval_agree key) fun _ => Agree.pure _
  | .call line function args => by
      unfold eval
      rw [resolve?_alike alike]
      refine Agree.bind (evalAll_agree args) fun values => Agree.locate ?_ _ _
      split
      · split
        · exact Agree.complain _
        · exact applyValue_agree alike _ _ _
      · exact Agree.complain _
  | .apply line base args =>
      Agree.bind (eval_agree base) fun _ => Agree.bind (evalAll_agree args) fun _ =>
        Agree.locate (applyValue_agree alike _ _ _) _ _
  | .filter line base name args =>
      Agree.bind (eval_agree base) fun _ => Agree.bind (evalAll_agree args) fun _ =>
        Agree.locate (applyFilter_agree _ _ _) _ _
  | .test line base name args =>
      Agree.bind (eval_agree base) fun _ => Agree.bind (evalAll_agree args) fun _ =>
        Agree.locate (Agree.bind (applyTest_agree _ _ _) fun _ => Agree.pure _) _ _
  | .not operand => Agree.bind (eval_agree operand) fun _ => Agree.pure _
  | .negate _ operand => by
      refine Agree.bind (eval_agree operand) fun value => ?_
      split
      · exact Agree.pure _
      · exact Agree.locate (Agree.complain _) _ _
  | .equal e others =>
      Agree.bind (eval_agree e) fun value => Agree.bind (evalEqual_agree value others) fun _ =>
        Agree.pure _
  | .sum left right => by
      refine Agree.bind (eval_agree left) fun _ => Agree.bind (eval_agree right) fun _ => ?_
      split
      · exact Agree.pure _
      · exact Agree.locate (Agree.complain _) _ _
  | .join left right =>
      Agree.bind (eval_agree left) fun _ => Agree.bind (eval_agree right) fun _ => Agree.pure _

theorem evalAll_agree : ∀ es :
    List Expression, c.Agree (evalAll first site es) (evalAll second site es)
  | [] => Agree.pure _
  | e :: rest =>
      Agree.bind (eval_agree e) fun _ => Agree.bind (evalAll_agree rest) fun _ => Agree.pure _

theorem evalEntries_agree : ∀ entries : List (Expression × Expression),
    c.Agree (evalEntries first site entries) (evalEntries second site entries)
  | [] => Agree.pure _
  | (key, value) :: rest =>
      Agree.bind (eval_agree key) fun _ => Agree.bind (eval_agree value) fun _ =>
        Agree.bind (evalEntries_agree rest) fun _ => Agree.pure _

theorem evalEqual_agree (value : Value) : ∀ es : List Expression,
    c.Agree (evalEqual first site value es) (evalEqual second site value es)
  | [] => Agree.pure _
  | next :: rest => by
      refine Agree.bind (eval_agree next) fun v => ?_
      split
      · exact evalEqual_agree v rest
      · exact Agree.pure _
end

omit alike in
theorem checkDepth_agree (scope : Scope) :
    c.Agree (checkDepth scope : Evaluation σ Unit) (checkDepth scope) := by
  unfold checkDepth
  split
  · exact Agree.complain _
  · exact Agree.pure _

omit alike in
theorem templateName_agree (value : Value) :
    c.Agree (templateName value : Evaluation σ String) (templateName value) := by
  unfold templateName
  split
  · exact Agree.pure _
  · exact Agree.complain _

/-! ### Statements -/

def RunsAlike (c : Companion σ τ) (run : Runner σ) (run' : Runner τ) : Prop :=
  ∀ template body discarded progress,
    c.Agree (run template body discarded progress) (run' template body discarded progress)

/-- A search for a page either finds the same in both, or it may be given up in both. -/
theorem firstPage?_accompanies (choices : List Value) :
    c.Accompanies (firstPage? first choices) (firstPage? second choices) fun page? s r =>
      c.related s r ∧ (page? = none → choices ≠ [] →
        c.stopped (.plain .missingTemplate none) s r) := by
  induction choices with
  | nil => exact fun _ _ related => .value ⟨related, fun _ some => absurd rfl some⟩
  | cons choice rest ih =>
      refine Accompanies.bind (templateName_agree choice) fun template s r related => ?_
      rw [run_bind, run_bind, run_tryCatch, run_tryCatch, map_eq_pure_bind, map_eq_pure_bind,
        run_bind, run_bind]
      have loaded := alike.load template s r related
      have kept := alike.searching template s r related
      generalize (first.load template).run.run s = one, (second.load template).run.run r = two
        at loaded kept
      cases loaded with
      | value found => exact .value ⟨found, nofun⟩
      | @fault fault s r stopped =>
          by_cases missing : fault.cause = .missingTemplate
          · simp only [missing, if_true]
            cases rest with
            | nil => exact .value ⟨kept, fun _ _ => c.missing stopped missing⟩
            | cons next rest =>
                exact (ih s r kept).weaken fun _ _ _ found =>
                  ⟨found.1, fun none _ => found.2 none (List.cons_ne_nil next rest)⟩
          · simp only [missing, if_false]
            exact .fault stopped
section

variable {run : Runner σ} {run' : Runner τ} (runs : RunsAlike c run run') (template : String)
  (discarded : Bool)

include runs

omit alike in
theorem embedPage_agree (progress : Progress) (page : Page) :
    c.Agree (embedPage ⟨first, run, template, discarded⟩ progress page)
      (embedPage ⟨second, run', template, discarded⟩ progress page) := by
  unfold embedPage
  refine Agree.bind (checkDepth_agree _) fun _ => Agree.bind ?_ fun _ => Agree.pure _
  intro s r related
  rw [run_tryCatch, run_tryCatch]
  have ended := runs page.template page.body (discarded || progress.parent.isSome)
    { progress.inner with
      scope := { progress.scope with included := progress.scope.included + Scope.inclusionWeight },
      blocks := page.blocks } s r related
  revert ended
  generalize (run page.template _ _ _).run.run s = one, (run' page.template _ _ _).run.run r = two
  intro ended
  cases ended with
  | value kept => exact .value kept
  | fault stopped => exact .fault (c.wrapping stopped _)

theorem embed_agree (progress : Progress) (value : Value) :
    c.Agree (embed ⟨first, run, template, discarded⟩ progress value)
      (embed ⟨second, run', template, discarded⟩ progress value) := by
  unfold embed
  refine Accompanies.bind (firstPage?_accompanies alike _) fun page? s r => ?_
  rintro ⟨related, givenUp⟩
  cases page? with
  | some page => exact embedPage_agree runs template discarded progress page s r related
  | none =>
      dsimp only
      split
      · exact .value related
      · next some => exact .fault (givenUp rfl (by simpa using some))

omit runs in
theorem inherit_agree (progress : Progress) (value : Value) :
    c.Agree (inherit ⟨first, run, template, discarded⟩ progress value)
      (inherit ⟨second, run', template, discarded⟩ progress value) := by
  unfold inherit
  dsimp only
  split
  · exact Agree.complain_bind _ _ _
  refine Agree.bind (templateName_agree value) fun name => ?_
  split
  · exact Agree.complain_bind _ _ _
  · exact Agree.bind (alike.load name) fun page => Agree.pure _

omit alike in
theorem callBlock_agree (progress : Progress) (name : String) :
    c.Agree (callBlock ⟨first, run, template, discarded⟩ progress name)
      (callBlock ⟨second, run', template, discarded⟩ progress name) := by
  unfold callBlock
  split
  · exact Agree.pure _
  split
  · exact Agree.pure _
  · exact Agree.bind (checkDepth_agree _) fun _ => Agree.bind (runs _ _ _ _) fun _ => Agree.pure _

omit alike runs in
theorem bindElement_agree (name : Option String) (item : Value) :
    c.Agree (bindElement name item : Evaluation σ (Fields Value)) (bindElement name item) := by
  unfold bindElement
  split
  · exact Agree.pure _
  · exact Agree.pure _
  · exact Agree.pure _
  · exact Agree.complain _

omit alike runs in
theorem forItems_agree {length depth : Nat} {bind : Value → Evaluation σ (Fields Value)}
    {bind' : Value → Evaluation τ (Fields Value)} (binds : ∀ item, c.Agree (bind item) (bind' item))
    {body : Progress → Evaluation σ Progress} {body' : Progress → Evaluation τ Progress}
    (turns : ∀ progress, c.Agree (body progress) (body' progress)) (items : List Value) :
    ∀ index previous progress,
    c.Agree (forItems length depth bind body index previous items progress)
      (forItems length depth bind' body' index previous items progress) := by
  induction items with
  | nil => exact fun _ _ _ => Agree.pure _
  | cons item rest ih =>
      intro index previous progress
      exact Agree.bind (binds item) fun _ => Agree.bind (turns _) fun _ => ih _ _ _

set_option linter.unusedSectionVars false in
mutual
theorem exec_agree : ∀ (statement : Statement) (progress : Progress),
    c.Agree (exec ⟨first, run, template, discarded⟩ statement progress)
      (exec ⟨second, run', template, discarded⟩ statement progress)
  | .text _, _ => Agree.pure _
  | .echo value, progress => Agree.bind (eval_agree alike _ value) fun _ => Agree.pure _
  | .set _ value, progress => Agree.bind (eval_agree alike _ value) fun _ => Agree.pure _
  | .conditional condition body otherwise, progress => by
      refine Agree.bind (eval_agree alike _ condition) fun _ => ?_
      split
      · exact execAll_agree body progress
      · exact execAll_agree otherwise progress
  | .forEach name source body otherwise, progress => by
      unfold exec
      refine Agree.bind (eval_agree alike _ source) fun value => ?_
      refine Agree.bind (Agree.locate ?_ _ _) fun items => ?_
      · split
        · exact Agree.bind (checkDepth_agree _) fun _ => Agree.pure _
        · exact Agree.complain _
      refine Agree.bind (forItems_agree (fun item => Agree.locate (bindElement_agree name item) _ _)
        (fun progress => execAll_agree body progress) items _ _ _) fun progress => ?_
      split
      · exact execAll_agree otherwise progress
      · exact Agree.pure _
  | .embed template', progress =>
      Agree.bind (eval_agree alike _ template') fun _ =>
        Agree.locate (embed_agree alike runs template discarded progress _) _ _
  | .inherit template', progress =>
      Agree.bind (eval_agree alike _ template') fun _ =>
        Agree.locate (inherit_agree alike template discarded progress _) _ _
  | .block _ name _, progress =>
      Agree.locate (callBlock_agree runs template discarded progress name) _ _

theorem execAll_agree : ∀ (body : List Statement) (progress : Progress),
    c.Agree (execAll ⟨first, run, template, discarded⟩ body progress)
      (execAll ⟨second, run', template, discarded⟩ body progress)
  | [], _ => Agree.pure _
  | statement :: rest, progress =>
      Agree.bind (exec_agree statement progress) fun progress => execAll_agree rest progress
end

end

/-! ### Pages -/

theorem runWithin_alike (levels : Nat) :
    RunsAlike c (runWithin first levels) (runWithin second levels) := by
  induction levels with
  | zero => exact fun _ _ _ _ => Agree.complain _
  | succ levels ih =>
      intro template body discarded progress
      unfold runWithin
      refine Agree.bind (execAll_agree alike ih template discarded body progress) fun progress => ?_
      split
      · exact Agree.pure _
      · exact ih _ _ _ _

theorem printPage_agree (page : Page) (given : Fields Value) :
    c.Agree (printPage first page given) (printPage second page given) := by
  unfold printPage
  exact Agree.bind (runWithin_alike alike _ _ _ _ _) fun _ => Agree.pure _

end

end ThemeTemplates.Evaluation
