import ThemeTemplates.Proofs.Page.Avoidance

/-!
# Tidy pages

Statements that name no hidden function, except that they may run loops in the form in which the
loop directives are expanded: a `for` over the items of a new frame whose body first moves the frame
on, and behind it a statement that closes the frame.
-/

namespace ThemeTemplates

/-- Code that leaves the hidden functions to the loops it runs. -/
inductive Tidy (hidden : String → Prop) : List Statement → Prop
  | nil : Tidy hidden []
  | text (s : String) {rest : List Statement} (tidyRest : Tidy hidden rest) :
    Tidy hidden (.text s :: rest)
  | echo {value : Expression} {rest : List Statement} (avoids : value.Avoids hidden)
    (tidyRest : Tidy hidden rest) : Tidy hidden (.echo value :: rest)
  | set {name : String} {value : Expression} {rest : List Statement} (visible : ¬ hidden name)
    (avoids : value.Avoids hidden) (tidyRest : Tidy hidden rest) :
    Tidy hidden (.set name value :: rest)
  | conditional {condition : Expression} {body otherwise rest : List Statement}
    (avoids : condition.Avoids hidden) (tidyBody : Tidy hidden body)
    (tidyOtherwise : Tidy hidden otherwise) (tidyRest : Tidy hidden rest) :
    Tidy hidden (.conditional condition body otherwise :: rest)
  | forEach {name : Option String} {source : Expression} {body otherwise rest : List Statement}
    (visible : ∀ bound, name = some bound → ¬ hidden bound) (avoids : source.Avoids hidden)
    (tidyBody : Tidy hidden body) (tidyOtherwise : Tidy hidden otherwise)
    (tidyRest : Tidy hidden rest) : Tidy hidden (.forEach name source body otherwise :: rest)
  | embed {template : Expression} {rest : List Statement} (avoids : template.Avoids hidden)
    (tidyRest : Tidy hidden rest) : Tidy hidden (.embed template :: rest)
  | inherit {template : Expression} {rest : List Statement} (avoids : template.Avoids hidden)
    (tidyRest : Tidy hidden rest) : Tidy hidden (.inherit template :: rest)
  | block {line : Nat} {name : String} {body rest : List Statement} (tidyBody : Tidy hidden body)
    (tidyRest : Tidy hidden rest) : Tidy hidden (.block line name body :: rest)
  | loop (kind : LoopKind) {name opened closed : String} {sources : List Expression}
    {pushLine pushKind stepLine stepItem stepKind popLine popKind : Nat}
    {body rest : List Statement} (visibleOpened : ¬ hidden opened)
    (visibleClosed : ¬ hidden closed) (avoids : Expression.AllAvoid hidden sources)
    (tidyBody : Tidy hidden body) (tidyRest : Tidy hidden rest) :
    Tidy hidden
      (.forEach (some name)
          (.call pushLine PageFunction.loopPush.name
            (sources ++ [.constant pushKind (.ofString kind.name)]))
          (.set opened
              (.call stepLine PageFunction.loopNext.name
                [.named stepItem name, .constant stepKind (.ofString kind.name)]) ::
            body)
          [] ::
        .set closed
            (.call popLine PageFunction.loopPop.name
              [.constant popKind (.ofString kind.name)]) ::
          rest)

namespace Tidy

variable {hidden : String → Prop}

theorem of_mem_blocksOf {statements : List Statement} (h : Tidy hidden statements) {name : String}
    {body : List Statement} (hmem : (name, body) ∈ Statement.blocksOf statements) :
    Tidy hidden body := by
  induction h with
  | nil => cases hmem
  | text _ _ ih | echo _ _ ih | set _ _ _ ih | embed _ _ ih | inherit _ _ ih =>
      exact ih (by simpa only [Statement.blocksOf, Statement.blocks, List.nil_append] using hmem)
  | conditional _ _ _ _ ihBody ihOtherwise ihRest =>
      simp only [Statement.blocksOf, Statement.blocks, List.mem_append] at hmem
      rcases hmem with (hmem | hmem) | hmem
      · exact ihBody hmem
      · exact ihOtherwise hmem
      · exact ihRest hmem
  | forEach _ _ _ _ _ ihBody ihOtherwise ihRest =>
      simp only [Statement.blocksOf, Statement.blocks, List.mem_append] at hmem
      rcases hmem with (hmem | hmem) | hmem
      · exact ihBody hmem
      · exact ihOtherwise hmem
      · exact ihRest hmem
  | block tidyBody _ ihBody ihRest =>
      simp only [Statement.blocksOf, Statement.blocks, List.mem_append, List.mem_cons,
        Prod.mk.injEq] at hmem
      rcases hmem with (⟨_, rfl⟩ | hmem) | hmem
      · exact tidyBody
      · exact ihBody hmem
      · exact ihRest hmem
  | loop _ _ _ _ _ _ ihBody ihRest =>
      simp only [Statement.blocksOf, Statement.blocks, List.nil_append, List.append_nil,
        List.mem_append] at hmem
      rcases hmem with hmem | hmem
      · exact ihBody hmem
      · exact ihRest hmem

theorem of_mem_blocks {page : Page} (h : Tidy hidden page.body) {name : String} {block : Block}
    (hmem : (name, block) ∈ page.blocks) : Tidy hidden block.body := by
  obtain ⟨⟨_, body⟩, hbody, same⟩ := List.mem_map.mp (Fields.mem_of_mem_ofList hmem)
  cases same
  exact h.of_mem_blocksOf hbody

end Tidy

/-- How far tidy code has come: its variables hold no hidden function, and the blocks and the page
it goes on with are tidy. -/
structure Evaluation.Progress.Tidy (hidden : String → Prop) (progress : Evaluation.Progress) :
    Prop where
  scope : progress.scope.Avoids hidden
  blocks : ∀ name block, (name, block) ∈ progress.blocks → ThemeTemplates.Tidy hidden block.body
  parent : ∀ page, progress.parent = some page → ThemeTemplates.Tidy hidden page.body

end ThemeTemplates
