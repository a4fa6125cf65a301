import ThemeTemplates.Proofs.Render.Lawfulness
import ThemeTemplates.Proofs.Script.Interpreter
import ThemeTemplates.Proofs.Script.Reading

/-!
# Interpreted scripts and their law

The law of a page that codes a script comes to what the script is interpreted as. The law keeps its
variables in frames, and in records when it hands them on; an interpretation has one function of
their names.
-/

namespace ThemeTemplates

open Evaluation Render

variable {σ α : Type}

/-- Whether what a host gives to partials is ordinary, whatever it finds. -/
def HostAction.GivesOrdinary : HostAction σ α → Prop
  | answer _ | fail _ => True
  | look resume => ∀ view, (resume view).GivesOrdinary
  | readState resume => ∀ state, (resume state).GivesOrdinary
  | writeState _ resume => resume.GivesOrdinary
  | renderChild _ data resume => Ordinary data ∧ ∀ result, (resume result).GivesOrdinary

namespace Scope

theorem find?_set_ite (scope : Scope) (name : String) (value : Value) (other : String) :
    (scope.set name value).find? other = if other = name then some value
      else scope.find? other := by
  obtain ⟨frames, given, included⟩ := scope
  by_cases same : other = name
  · subst same
    rw [if_pos rfl, Scope.find?_set]
  · rw [if_neg same]
    cases frames with
    | nil => simp [Scope.set, Scope.find?, Frame.find?, Fields.find?_insert, same]
    | cons frame outer =>
        have inner : Frame.find? { frame with locals := frame.locals.insert name value } other =
            frame.find? other := by
          simp [Frame.find?, Fields.find?_insert, same]
        simp only [Scope.set, Scope.find?, List.findSome?_cons, inner]

theorem loopDepth_set (scope : Scope) (name : String) (value : Value) :
    (scope.set name value).loopDepth = scope.loopDepth := by
  obtain ⟨frames, given, included⟩ := scope
  cases frames <;> rfl

theorem length_frames_set {scope : Scope} (inside : scope.frames ≠ []) (name : String)
    (value : Value) :
    (scope.set name value).frames.length = scope.frames.length := by
  obtain ⟨frames, given, included⟩ := scope
  cases frames with
  | nil => exact absurd rfl inside
  | cons frame outer => rfl

theorem included_set (scope : Scope) (name : String) (value : Value) :
    (scope.set name value).included = scope.included := by
  obtain ⟨frames, given, included⟩ := scope
  cases frames <;> rfl

theorem leave_set {scope : Scope} (inside : scope.frames ≠ []) (name : String) (value : Value) :
    (scope.set name value).leave = scope.leave := by
  obtain ⟨frames, given, included⟩ := scope
  cases frames with
  | nil => exact absurd rfl inside
  | cons frame outer => rfl

theorem find?_enter (scope : Scope) (frame : Frame) (name : String) :
    (scope.enter frame).find? name = (frame.find? name).or (scope.find? name) := by
  unfold find? enter
  cases found : frame.find? name <;> simp [found]

end Scope

namespace Evaluation.Progress

theorem print_empty (progress : Progress) : progress.print "" = progress := by
  simp [print]

theorem print_print (progress : Progress) (first second : String) :
    (progress.print first).print second = progress.print (first ++ second) := by
  unfold print
  split
  · rfl
  · exact congrArg (fun output => { progress with output }) (String.append_assoc ..)

theorem print_setScope (progress : Progress) (scope : Scope) (s : String) :
    ({ progress with scope } : Progress).print s = { progress.print s with scope } := by
  unfold print
  split <;> rfl

end Evaluation.Progress

namespace Script

/-! ### States -/

/-- The courses of a law and of an interpretation, which keeps no data that partials are given. -/
structure Alike (r s : Course σ) : Prop where
  item : r.currentItem = s.currentItem
  failure : r.failure = s.failure
  host : r.host = s.host
  ordinary : ∀ data ∈ r.given, Ordinary data

/-- How steps that cannot fail end in a law and in an interpretation: with the same result. -/
def Agree (law direct : α × Course σ) : Prop :=
  law.1 = direct.1 ∧ Alike law.2 direct.2

def directMirror (σ : Type) : Mirror (Course σ) (Course σ) where
  strict := False
  lost := fun _ => False
  stopped := Alike

variable {β : Type} {r s : Course σ}

namespace Alike

theorem setHost (h : Alike r s) (host : σ) : Alike { r with host } { s with host } :=
  ⟨h.item, h.failure, rfl, h.ordinary⟩

theorem setItem (h : Alike r s) (item : Data) :
    Alike { r with currentItem := item } { s with currentItem := item } :=
  ⟨rfl, h.failure, h.host, h.ordinary⟩

theorem record (h : Alike r s) (failure : Failure) :
    Alike { r with failure := r.failure.or (some failure) }
      { s with failure := s.failure.or (some failure) } :=
  ⟨h.item, congrArg (·.or (some failure)) h.failure, h.host, h.ordinary⟩

theorem given (h : Alike r s) {data : ViewData} (ordinary : Ordinary data) :
    Alike { r with given := data :: r.given } s :=
  ⟨h.item, h.failure, h.host, List.forall_mem_cons.mpr ⟨ordinary, h.ordinary⟩⟩

end Alike

theorem locate_bind {τ : Type} (template : String) (line : Nat) (first : Evaluation τ α)
    (next : α → Evaluation τ β) :
    locate template line (first >>= next) =
      (locate template line first >>= fun value => locate template line (next value)) := by
  refine ExceptT.ext (StateT.ext fun t => ?_)
  unfold locate
  rw [run_tryCatch, run_bind, run_bind, run_tryCatch]
  cases first.run.run t with
  | mk result reached =>
      cases result with
      | ok value => exact (run_tryCatch _ _ _).symm
      | error fault => rfl

theorem mirrors_of_ends {before : Course σ → Course σ → Prop}
    {source : Evaluation (Course σ) α} {image : Evaluation (Course σ) β}
    {keeps : β → Prop} {after : α → β → Course σ → Course σ → Prop}
    (h : ∀ r s, before r s →
      (directMirror σ).Ends keeps after (source.run.run r) (image.run.run s)) :
    Mirrors (directMirror σ) before source image keeps after :=
  ⟨fun _ lost => lost.elim, h⟩

theorem mirrors_map {source : Evaluation (Course σ) α}
    {image : Evaluation (Course σ) β} {f : β → α} {γ : Type} {f' : γ → α} {g : β → γ}
    (h : Mirrors (directMirror σ) Alike source image (fun _ => True) (Determines f fun _ => Alike))
    (same : ∀ b, f b = f' (g b)) :
    Mirrors (directMirror σ) Alike source (do return g (← image)) (fun _ => True)
      (Determines f' fun _ => Alike) := by
  have mapped : Mirrors (directMirror σ) Alike (source >>= pure) (image >>= fun b => pure (g b))
      (fun _ => True) (Determines f' fun _ => Alike) :=
    h.bindDetermined fun b _ => Mirrors.pure trivial fun _ _ alike => ⟨same b, alike⟩
  rwa [bind_pure] at mapped

theorem mirrors_take {source : Evaluation (Course σ) α}
    {image : Evaluation (Course σ) β} {f : β → α} {g : α → β}
    (h : Mirrors (directMirror σ) Alike source image (fun _ => True) (Determines f fun _ => Alike))
    (back : ∀ b, g (f b) = b) :
    Mirrors (directMirror σ) Alike (do return g (← source)) image (fun _ => True)
      (Same fun _ => Alike) := by
  have taken : Mirrors (directMirror σ) Alike (source >>= fun a => pure (g a)) (image >>= pure)
      (fun _ => True) (Same fun _ => Alike) :=
    h.bindDetermined fun b _ => Mirrors.pure trivial fun _ _ alike => ⟨back b, alike⟩
  rwa [bind_pure] at taken

/-- Templates that mirror each other end in the same result. -/
theorem agree_settle {first second : Evaluation (Course σ) String}
    {before : Course σ → Course σ → Prop} {keeps : String → Prop}
    (mirrors : Mirrors (directMirror σ) before first second keeps (Same fun _ => Alike))
    (template : String) (begun : before r s) :
    Agree ((Course.settle template first).run r) ((Course.settle template second).run s) := by
  have ended := mirrors.follows r s begun
  rw [Course.run_settle, Course.run_settle]
  generalize first.run.run r = law, second.run.run s = direct at ended
  cases ended with
  | value _ related =>
      obtain ⟨rfl, alike⟩ := related
      exact ⟨rfl, alike⟩
  | fault alike =>
      refine ⟨?_, alike.item, rfl, alike.host, alike.ordinary⟩
      exact congrArg (fun failure? => Except.error (Option.getD failure? _)) alike.failure
  | lostValue _ lost => exact lost.elim
  | lostFault lost => exact lost.elim

/-! ### Variables -/

theorem isHidden_name (function : PageFunction) : Token.IsHidden function.name :=
  List.isPrefixOf_iff_prefix.mp (by cases function <;> decide +kernel)

theorem copy?_eq (value : Value) : value.copy? = value.held? := by
  cases value <;> rfl

/-- A scope of the law with what stands around a part of a script. -/
structure Around.Held (around : Around) (scope : Scope) : Prop extends
    scope.Lawful around.enclosing where
  found : ∀ name, scope.find? name = around.given name
  level : scope.loopDepth = around.level
  size : scope.frames.length = around.level + 1
  included : scope.included = 0

namespace Around.Held

variable {around : Around} {scope : Scope}

theorem start {enclosing : List Turn} {data : ViewData} (h : Handed enclosing data) {given : Layer}
    (found : ∀ name, Scope.find? { given := context data } name = given name) :
    Held ⟨enclosing, 0, given⟩ { given := context data } where
  toLawful := h.lawful
  found := found
  level := rfl
  size := rfl
  included := rfl

theorem frames_ne_nil (h : around.Held scope) : scope.frames ≠ [] := by
  intro none
  have size := h.size
  rw [none] at size
  cases size

theorem set {given : Layer} {level : Nat} {enclosing : List Turn} (clear : scope.Clear)
    (found : ∀ name, scope.find? name = given name) (depth : scope.loopDepth = level)
    (size : scope.frames.length = level + 1) (included : scope.included = 0) :
    Held ⟨enclosing, level,
        Function.update given Turn.loopVariable (some (Turn.value enclosing))⟩
      (scope.set Turn.loopVariable (Turn.value enclosing)) where
  toLawful := clear.lawful_set enclosing
  found := fun name => by
    rw [Scope.find?_set_ite, found]
    exact (Function.update_apply _ _ _ _).symm
  level := (scope.loopDepth_set _ _).trans depth
  size := by
    have inside : scope.frames ≠ [] := List.ne_nil_of_length_eq_add_one size
    rw [Scope.length_frames_set inside, size]
  included := (scope.included_set _ _).trans included

theorem afterLoop (h : around.Held scope) :
    around.afterLoop.Held (scope.set Turn.loopVariable (Turn.value around.enclosing)) :=
  .set h.toClear h.found h.level h.size h.included

theorem turn (h : around.Held scope) {name : String} (named : isName name = true)
    (notLoop : name ≠ "loop") (items : List Data) (index : Nat) (item : Data)
    (previous next : Value) :
    (around.turn name items index item previous next).Held
      ((scope.enter (Outline.turnFrame name item index items.length around.level previous next)).set
        Turn.loopVariable (Turn.value (⟨items, index⟩ :: around.enclosing))) := by
  have visible := (isName_iff.mp named).2
  refine .set (h.toClear.enter visible _) (fun other => ?_) rfl
    (congrArg (· + 1) h.size) h.included
  rw [Scope.find?_enter, Function.update_apply, Function.update_apply, h.found]
  by_cases same : other = name
  · subst same
    simp [Outline.turnFrame, Frame.find?, Fields.find?_cons]
  · rw [if_neg same]
    by_cases isLoop : other = "loop"
    · subst isLoop
      simp [Outline.turnFrame, Frame.find?, Fields.find?_cons, same]
    · simp [Outline.turnFrame, Frame.find?, Fields.find?_cons, same, isLoop]

theorem data?_eq (h : around.Held scope) : scope.data? = around.copy? := by
  funext name
  have copied : Value.copy? = Value.held? := funext copy?_eq
  rw [Around.copy?, copied, ← h.found]
  rfl

theorem map_inheritable (h : around.Held scope) (name : String) :
    (scope.inheritable.find? name).map Value.ofData = around.handedOn name := by
  rw [Scope.find?_inheritable, h.data?_eq, Around.handedOn]
  by_cases hidden : name = "loop" ∨ "__".toList.isPrefixOf name.toList = true
  · have kept : Scope.isInherited name = false := by
      rcases hidden with rfl | hidden
      · rfl
      · rw [Scope.isInherited, hidden, Bool.not_true, Bool.and_false]
    rw [if_pos hidden, kept]
    rfl
  · obtain ⟨notLoop, shown⟩ := not_or.mp hidden
    have passed : Scope.isInherited name = true := by
      rw [Scope.isInherited, Bool.and_eq_true, bne_iff_ne, Bool.not_eq_true']
      exact ⟨notLoop, Bool.eq_false_iff.mpr shown⟩
    rw [if_neg hidden, passed]
    rfl

theorem find?_merged (h : around.Held scope) {data layer merged : ViewData}
    (settings : ∀ key, merged.find? key =
      (data.setting? key).or ((layer.setting? key).or (scope.inheritable.find? key)))
    (name : String) :
    Scope.find? { given := context merged } name =
      starting [.ofSettings data, .ofSettings layer, around.handedOn] name := by
  rw [starting, Function.update_apply]
  split
  · next same => rw [same, Scope.find?_start, find?_context_session]
  · next apart =>
      rw [find?_context apart, settings, Option.map_or, Option.map_or, h.map_inheritable]
      simp only [Layer.nearest?_cons, Layer.ofSettings]
      exact congrArg _ (congrArg _ Option.or_none.symm)

end Around.Held

/-! ### Partials and hosts -/

/-- The partials of an interpretation are those of the law, given the same variables. -/
inductive Interprets : Option (LawfulRenderer σ) → Option (Interpreter σ) → Prop
  | none : Interprets none none
  | some {law : LawfulRenderer σ} {inner : Interpreter σ}
    (follows : ∀ enclosing template data given, Handed enclosing data →
      (∀ name, Scope.find? { given := context data } name = given name) →
      Mirrors (directMirror σ) Alike (law enclosing template (context data))
        (inner enclosing template given) (fun _ => True) (Same fun _ => Alike)) :
    Interprets (some law) (some inner)

section

variable {render : Render σ} {law? : Option (LawfulRenderer σ)} {inner? : Option (Interpreter σ)}
  {template : String} {around : Around} {scope : Scope}

section

variable (interprets : Interprets law? inner?) (defaults : render.PlainDefaults)
  (held : around.Held scope)

include interprets defaults held

theorem partialResult_alike (name : String) {data : ViewData} (ordinary : Ordinary data)
    (h : Alike r s) :
    Agree ((render.lawfulChild law? around.enclosing scope name data).run r)
      ((partialResult render inner? around name data).run s) := by
  unfold partialResult
  cases supplied : render.defaults name with
  | error source =>
      have refused := (View.resolve_undefaulted supplied scope.inheritable data).2
      rw [lawfulChild_of_error refused]
      exact ⟨rfl, h.given ordinary⟩
  | ok layer =>
      obtain ⟨merged, resolved, settings⟩ :=
        View.resolveChild_of_defaults supplied scope.inheritable data
      cases interprets with
      | none =>
          rw [lawfulChild_of_none resolved]
          exact ⟨rfl, h.given ordinary⟩
      | @some law inner follows =>
          have follows := follows around.enclosing name merged _
            (held.toLawful.handed defaults ordinary resolved) (held.find?_merged settings)
          have settled := agree_settle follows name (h.given ordinary)
          rwa [Course.run_settle, ← lawfulChild_of_some resolved] at settled

theorem carryOut_alike {action : HostAction σ α} (gives : action.GivesOrdinary) (h : Alike r s) :
    Agree
      ((action.carryOut
        (fun course => course.view template render.view around.enclosing scope.data?)
        (render.lawfulChild law? around.enclosing scope)).run r)
      ((action.carryOut
        (fun course => course.view template render.view around.enclosing around.copy?)
        (partialResult render inner? around)).run s) := by
  induction action generalizing r s with
  | answer | fail => exact ⟨rfl, h⟩
  | look resume ih =>
      have seen : r.view template render.view around.enclosing scope.data? =
          s.view template render.view around.enclosing around.copy? := by
        rw [held.data?_eq, Course.view, Course.view, h.item]
      change Agree (((resume (r.view template render.view around.enclosing scope.data?)).carryOut _
        _).run r) _
      rw [seen]
      exact ih _ (gives _) h
  | readState resume ih =>
      change Agree (((resume r.host).carryOut _ _).run r) _
      rw [h.host]
      exact ih _ (gives _) h
  | writeState host resume ih => exact ih gives (h.setHost host)
  | renderChild name data resume ih =>
      obtain ⟨ordinary, later⟩ := gives
      obtain ⟨result, related⟩ := partialResult_alike interprets defaults held name ordinary h
      change Agree (((resume
        ((render.lawfulChild law? around.enclosing scope name data).run r).1).carryOut _ _).run _) _
      rw [result]
      exact ih _ (later _) related

omit interprets defaults held in
theorem failWith_alike {keeps : β → Prop} {after : α → β → Course σ → Course σ → Prop}
    (failure : Failure) :
    Mirrors (directMirror σ) Alike (Course.failWith failure) (Course.failWith failure)
      keeps after :=
  mirrors_of_ends fun _ _ h => .fault (h.record failure)

theorem menu_mirrors (menus : ∀ menu, (render.host.navMenu menu).GivesOrdinary) (value : Value) :
    Mirrors (directMirror σ) Alike
      (do return .ofData (← render.lawfulAsk law? around.enclosing ⟨template, scope⟩ "nav_menu"
        (render.host.navMenu value.toData)))
      (menu render inner? template around value) (fun _ => True) (Same fun _ => Alike) := by
  have asks : Mirrors (directMirror σ) Alike
      (liftM ((render.host.navMenu value.toData).carryOut
        (fun course => course.view template render.view around.enclosing scope.data?)
        (render.lawfulChild law? around.enclosing scope)))
      (liftM ((render.host.navMenu value.toData).carryOut
        (fun course => course.view template render.view around.enclosing around.copy?)
        (partialResult render inner? around)))
      (fun _ => True) (Same fun _ => Alike) :=
    Mirrors.lift (fun _ lost => lost.elim) fun _ _ h =>
      .inl (carryOut_alike interprets defaults held (menus _) h)
  unfold lawfulAsk menu
  rw [bind_assoc]
  refine Mirrors.bindSame asks fun answered _ => ?_
  cases answered with
  | ok answer => exact Mirrors.pure trivial fun _ _ h => ⟨rfl, h⟩
  | error error => exact mirrors_of_ends fun _ _ h => .fault (h.record _)

theorem partialOutput_mirrors (slug : String) :
    Mirrors (directMirror σ) Alike
      (render.lawfulPartial law? around.enclosing ⟨template, scope⟩ (childTemplate slug) [])
      (partialOutput render inner? around slug) (fun _ => True)
      (Determines Value.markup fun _ => Alike) := by
  have renders : Mirrors (directMirror σ) Alike
      (liftM (render.lawfulChild law? around.enclosing scope (childTemplate slug) []))
      (liftM (partialResult render inner? around (childTemplate slug) []))
      (fun _ => True) (Same fun _ => Alike) :=
    Mirrors.lift (fun _ lost => lost.elim) fun _ _ h =>
      .inl (partialResult_alike interprets defaults held _ Ordinary.nil h)
  unfold lawfulPartial partialOutput
  refine Mirrors.bindSame renders fun result _ => ?_
  cases result with
  | ok output => exact Mirrors.pure trivial fun _ _ h => ⟨rfl, h⟩
  | error failure => exact failWith_alike failure

end

/-! ### Expressions -/

theorem eval_fieldsOf {τ : Type} {surroundings : Surroundings τ} {site : Site} {base : Expression}
    {value : Value} (h : eval surroundings site base = pure value) (fields : List String) :
    eval surroundings site (Parse.fieldsOf base fields) =
      pure (fields.foldl (fun value field => value.lookup (.ofString field)) value) := by
  induction fields generalizing base value with
  | nil => exact h
  | cons field fields ih =>
      refine ih ?_
      rw [eval, h, pure_bind]

theorem evalAll_single {τ : Type} (surroundings : Surroundings τ) (site : Site) (arg : Expression) :
    evalAll surroundings site [arg] = (do return [← eval surroundings site arg]) := by
  simp [evalAll]

theorem eval_path (held : around.Held scope) {path : Path} (h : path.isOrdinary = true)
    (line : Nat) :
    eval (render.lawfulSurroundings law? around.enclosing) ⟨template, scope⟩
      (path.expression line) =
      pure (path.value render.host.functions around.given) := by
  refine eval_fieldsOf ?_ path.fields
  obtain ⟨-, -, -, variableHead⟩ := Path.isOrdinary_iff.mp h
  rw [eval, resolve?, held.found]
  cases around.given path.head with
  | some value => rfl
  | none =>
      have known : (render.lawfulSurroundings law? around.enclosing).isFunction path.head =
          render.host.functions.contains path.head := by
        show (render.host.functions.contains path.head || _) = _
        rw [variableHead]
        exact Bool.or_false _
      simp only [known]
      split <;> rfl

theorem eval_operand (held : around.Held scope) {source : Operand} (h : source.isOrdinary = true)
    (line : Nat) :
    eval (render.lawfulSurroundings law? around.enclosing) ⟨template, scope⟩
        (source.expression line) =
      pure (source.value render.host.functions around.given) := by
  cases source with
  | path sigil p => exact eval_path held h line
  | text s => rfl

section

variable (visible : ∀ name ∈ render.host.functions, ¬ Token.IsHidden name)

include visible

theorem unknown_name (function : PageFunction) :
    render.host.functions.contains function.name = false := by
  simpa using fun known => visible function.name known (isHidden_name function)

omit visible in
theorem eval_call (held : around.Held scope) (function : PageFunction)
    (notSession : function.name ≠ sessionVariable) (line : Nat) (args : List Expression) :
    eval (render.lawfulSurroundings law? around.enclosing) ⟨template, scope⟩
        (.call line function.name args) = (do
      let values ← evalAll (render.lawfulSurroundings law? around.enclosing) ⟨template, scope⟩ args
      locate template line
        (render.lawfulCall law? around.enclosing ⟨template, scope⟩ function.name values)) := by
  have unshadowed : scope.find? function.name = none := by
    rw [held.find? (isHidden_name function), if_neg notSession]
  have isFunction : (render.lawfulSurroundings law? around.enclosing).isFunction function.name =
      true := by
    show (render.host.functions.contains function.name || _) = true
    rw [PageFunction.ofName?_name]
    exact Bool.or_true _
  simp only [eval, resolve?, unshadowed, isFunction, if_true, ownCalls_contains_name,
    Bool.false_eq_true, if_false, applyValue]
  rfl

theorem undertakes?_name (function : PageFunction) (args : List Value) :
    render.undertakes? function.name args = render.deed? function args := by
  unfold undertakes?
  rw [if_neg (by rw [unknown_name visible]; exact Bool.false_ne_true), PageFunction.ofName?_name]
  rfl

theorem lawfulCall_navMenu (site : Site) (enclosing : List Turn) (value : Value) :
    render.lawfulCall law? enclosing site PageFunction.navMenu.name [value] = (do
      return .ofData (← render.lawfulAsk law? enclosing site "nav_menu"
        (render.host.navMenu value.toData))) := by
  unfold lawfulCall
  rw [undertakes?_name visible]
  rfl

theorem lawfulCall_renderChild (site : Site) (enclosing : List Turn) (name : String) :
    render.lawfulCall law? enclosing site PageFunction.renderChild.name [.ofString name, .map []] =
      render.lawfulPartial law? enclosing site name [] := by
  unfold lawfulCall
  rw [undertakes?_name visible]
  rfl

end

/-! ### Loops and partials -/

section

variable (interprets : Interprets law? inner?) (defaults : render.PlainDefaults)
  (visible : ∀ name ∈ render.host.functions, ¬ Token.IsHidden name) (held : around.Held scope)

include interprets defaults visible held

theorem items_mirrors (menus : ∀ menu, (render.host.navMenu menu).GivesOrdinary) (kind : LoopKind)
    {source : Operand} (h : source.isOrdinary = true) (line : Nat) :
    Mirrors (directMirror σ) Alike
      (Outline.items (render.lawfulSurroundings law? around.enclosing) ⟨template, scope⟩ kind line
        [itemsExpression line kind source])
      (locate template line (items render inner? template around kind source)) (fun _ => True)
      (Same fun _ => Alike) := by
  have taken : ∀ value : Value, Mirrors (directMirror σ) Alike (Outline.itemsOf kind [value])
      (Outline.itemsOf kind [value]) (fun _ => True) (Same fun _ => Alike) := by
    intro value
    simp only [Outline.itemsOf]
    cases value.toData.items? with
    | some items => exact Mirrors.pure trivial fun _ _ h => ⟨rfl, h⟩
    | none => exact Mirrors.complain _ fun _ _ h => h
  cases kind with
  | loop =>
      unfold Outline.items items
      simp only [itemsExpression, evalAll_single, eval_operand held h, pure_bind]
      exact (taken _).locate template line
  | simpleMenu =>
      unfold Outline.items items
      rw [locate_bind]
      rw [itemsExpression, evalAll_single, eval_call held .navMenu (by decide +kernel),
        evalAll_single, eval_operand held h]
      simp only [pure_bind, bind_assoc, lawfulCall_navMenu visible]
      refine Mirrors.bindSame ((menu_mirrors interprets defaults held menus _).locate template line)
        ?_
      exact fun value _ => (taken value).locate template line

variable (template)

theorem child_mirrors (slug : String) (line : Nat) :
    Mirrors (directMirror σ) Alike
      (eval (render.lawfulSurroundings law? around.enclosing) ⟨template, scope⟩
        (childExpression line slug))
      (locate template line (partialOutput render inner? around slug)) (fun _ => True)
      (Determines Value.markup fun _ => Alike) := by
  have args : evalAll (render.lawfulSurroundings law? around.enclosing) ⟨template, scope⟩
      [.constant line (.ofString (childTemplate slug)), .mapFrom line []] =
        pure [.ofString (childTemplate slug), .map []] := by
    simp [evalAll, eval, evalEntries, Expression.mapFrom]
  rw [childExpression, eval_call held .renderChild (by decide +kernel), args, pure_bind,
    lawfulCall_renderChild visible]
  exact (partialOutput_mirrors interprets defaults held slug).locate template line

end

end

/-! ### Turns and whole scripts -/

def scopeAfter (enclosing : List Turn) : Script → Scope → Scope
  | done _, scope => scope
  | echo _ _ rest, scope | child _ _ rest, scope => rest.scopeAfter enclosing scope
  | loop _ _ _ _ _ rest, scope =>
    rest.scopeAfter enclosing (scope.set Turn.loopVariable (Turn.value enclosing))

theorem leave_scopeAfter (enclosing : List Turn) (script : Script) {scope : Scope}
    (inside : scope.frames ≠ []) : (script.scopeAfter enclosing scope).leave = scope.leave := by
  induction script generalizing scope with
  | done text => rfl
  | echo text path rest ih => exact ih inside
  | child text slug rest ih => exact ih inside
  | loop text kind source name body rest _ ih =>
      have stays : (scope.set Turn.loopVariable (Turn.value enclosing)).frames ≠ [] := by
        rw [← List.length_pos_iff, Scope.length_frames_set inside]
        exact List.length_pos_iff.mpr inside
      exact (ih stays).trans (Scope.leave_set inside _ _)

def progressAfter (script : Script) (enclosing : List Turn) (progress : Progress)
    (printed : String) :
    Progress :=
  { progress.print printed with scope := script.scopeAfter enclosing progress.scope }

theorem progressAfter_done (text : String) (enclosing : List Turn) (progress : Progress)
    (printed : String) : (done text).progressAfter enclosing progress printed =
      progress.print printed := by
  unfold progressAfter scopeAfter Progress.print
  split <;> rfl

theorem progressAfter_print (script : Script) (enclosing : List Turn) (progress : Progress)
    (first second : String) :
    script.progressAfter enclosing (progress.print first) second =
      script.progressAfter enclosing progress (first ++ second) := by
  simp only [progressAfter, Progress.print_print, scope_print]

theorem progressAfter_loop {text name : String} {kind : LoopKind} {source : Operand} {body : Script}
    (rest : Script) (enclosing : List Turn) (progress : Progress) (first second : String) :
    rest.progressAfter enclosing { progress.print first with
        scope := progress.scope.set Turn.loopVariable (Turn.value enclosing) } second =
      (loop text kind source name body rest).progressAfter enclosing progress
        (first ++ second) := by
  unfold progressAfter
  rw [Progress.print_setScope, Progress.print_print]
  rfl

theorem progressAfter_leave (script : Script) (enclosing : List Turn) {progress : Progress}
    {inner : Scope} (inside : inner.frames ≠ []) (back : inner.leave = progress.scope)
    (printed : String) :
    { script.progressAfter enclosing { progress with scope := inner } printed with
      scope := (script.progressAfter enclosing { progress with scope := inner } printed).scope.leave
        } =
        progress.print printed := by
  have left : (script.scopeAfter enclosing inner).leave = progress.scope :=
    (leave_scopeAfter enclosing script inside).trans back
  simp only [progressAfter, left]
  unfold Progress.print
  split <;> rfl

theorem standOn_mirrors (kind : LoopKind) (item : Data) :
    Mirrors (directMirror σ) Alike (Outline.standOn kind item) (Outline.standOn kind item)
      (fun _ => True) (Same fun _ => Alike) := by
  cases kind with
  | loop => exact mirrors_of_ends fun _ _ h => .value trivial ⟨rfl, h.setItem item⟩
  | simpleMenu => exact Mirrors.pure trivial fun _ _ h => ⟨rfl, h⟩

theorem turns_mirrors {script : Script} (kind : LoopKind) {name : String}
    (named : isName name = true) (notLoop : name ≠ "loop") {items : List Data} {around : Around}
    {law : List Turn → Progress → Evaluation (Course σ) Progress}
    {body : Around → Evaluation (Course σ) String}
    (runs : ∀ (inner : Around) progress, inner.level = around.level + 1 →
      inner.Held progress.scope →
      Mirrors (directMirror σ) Alike (law inner.enclosing progress) (body inner) (fun _ => True)
        (Determines (script.progressAfter inner.enclosing progress) fun _ => Alike))
    {progress : Progress} (held : around.Held progress.scope)
    (index : Nat) (previous : Value) (rest : List Data) :
    Mirrors (directMirror σ) Alike
      (Outline.turns kind name items around.enclosing around.level law index previous rest progress)
      (printTurns kind name items around body index previous rest) (fun _ => True)
      (Determines progress.print fun _ => Alike) := by
  induction rest generalizing index previous progress with
  | nil => exact Mirrors.pure trivial fun _ _ h => ⟨progress.print_empty.symm, h⟩
  | cons item rest ih =>
      unfold Outline.turns printTurns Outline.turn
      simp only [bind_assoc]
      refine Mirrors.bindSame (standOn_mirrors kind item) fun _ _ => ?_
      set next := (rest.head?.map Value.ofData).getD .undefined
      have inner := held.turn named notLoop items index item previous next
      refine Mirrors.bindDetermined (runs _ ⟨_, _, _, _, _⟩ rfl inner) fun printed _ => ?_
      have left := progressAfter_leave script
        (around.turn name items index item previous next).enclosing
        inner.frames_ne_nil (Scope.leave_set (List.cons_ne_nil _ _) _ _) printed
      have others := mirrors_map (ih ((scope_print progress printed).symm ▸ held) (index + 1)
        (.ofData item)) (progress.print_print printed)
      rw [← left] at others
      exact others

theorem run_textOutline (around : List Turn → Surroundings (Course σ)) (template : String)
    (text : String) (outline : Outline) (enclosing : List Turn) (progress : Progress) :
    (textOutline text outline).run around template enclosing progress =
      outline.run around template enclosing (progress.print text) := by
  unfold textOutline
  split
  · next empty =>
      have none : text = "" := String.toList_eq_nil_iff.mp (List.isEmpty_iff.mp empty)
      simp [none, Progress.print]
  · rw [Outline.run]

theorem checkDepth_of_held {τ : Type} {around : Around} {scope : Scope} (held : around.Held scope)
    (shallow : around.level ≤ heightLimit) (template : String) (line : Nat) :
    locate template line (checkDepth scope : Evaluation τ Unit) = pure () := by
  have few : scope.tooDeep = false := by
    have limits : heightLimit + 1 ≤ Scope.depthLimit := by decide
    rw [Scope.tooDeep, Scope.depth, held.included, held.size, decide_eq_false_iff_not]
    omega
  rw [checkDepth, few]
  rfl

theorem mirrors_get {next : Course σ → Evaluation (Course σ) α}
    {next' : Course σ → Evaluation (Course σ) β} {keeps : β → Prop}
    {after : α → β → Course σ → Course σ → Prop}
    (h : ∀ r s, r.currentItem = s.currentItem →
      Mirrors (directMirror σ) Alike (next r) (next' s) keeps after) :
    Mirrors (directMirror σ) Alike (get >>= next) (get >>= next') keeps after :=
  mirrors_of_ends fun r s alike => (h r s alike.item).follows r s alike

theorem interpret_mirrors {render : Render σ} {law? : Option (LawfulRenderer σ)}
    {inner? : Option (Interpreter σ)} (interprets : Interprets law? inner?)
    (defaults : render.PlainDefaults)
    (visible : ∀ name ∈ render.host.functions, ¬ Token.IsHidden name)
    (menus : ∀ menu, (render.host.navMenu menu).GivesOrdinary) (template : String) {script : Script}
    (h : script.isOrdinary = true) (line : Nat) {around : Around} {progress : Progress}
    (held : around.Held progress.scope) (shallow : around.level + script.height ≤ heightLimit) :
    Mirrors (directMirror σ) Alike
      ((script.outline line).run (render.lawfulSurroundings law?) template
        around.enclosing progress)
      (script.interpret render inner? template line around) (fun _ => True)
      (Determines (script.progressAfter around.enclosing progress) fun _ => Alike) := by
  induction script generalizing line around progress with
  | done text =>
      rw [outline, run_textOutline]
      exact Mirrors.pure trivial fun _ _ h => ⟨(progressAfter_done text _ progress text).symm, h⟩
  | echo text path rest ih =>
      simp only [isOrdinary, Bool.and_eq_true] at h
      obtain ⟨⟨-, ordinary⟩, later⟩ := h
      have shown : around.Held (progress.print text).scope :=
        (scope_print progress text).symm ▸ held
      rw [outline, run_textOutline, Outline.run, eval_path shown ordinary, pure_bind,
        Progress.print_print]
      refine mirrors_map (ih later _ ((scope_print progress _).symm ▸ held) shallow)
        fun others => ?_
      rw [progressAfter_print, String.append_assoc]
      rfl
  | child text slug rest ih =>
      simp only [isOrdinary, Bool.and_eq_true] at h
      have shown : around.Held (progress.print text).scope :=
        (scope_print progress text).symm ▸ held
      rw [outline, run_textOutline, Outline.run]
      refine Mirrors.bindDetermined
        (child_mirrors template interprets defaults visible shown slug _)
        fun output _ => ?_
      rw [Progress.print_print]
      refine mirrors_map (ih h.2 _ ((scope_print progress _).symm ▸ held) shallow) fun others => ?_
      rw [progressAfter_print, String.append_assoc]
      rfl
  | loop text kind source name body rest ihBody ihRest =>
      simp only [isOrdinary, Bool.and_eq_true, Bool.not_eq_true'] at h
      obtain ⟨⟨⟨⟨⟨-, sourced⟩, named⟩, bindable⟩, ordinaryBody⟩, ordinaryRest⟩ := h
      have notLoop : name ≠ "loop" := by
        rintro rfl
        revert bindable
        decide +kernel
      have shallowBody : around.level + 1 + body.height ≤ heightLimit := by
        have := Nat.le_max_left (body.height + 1) rest.height
        simp only [height] at shallow
        omega
      have shallowRest : around.afterLoop.level + rest.height ≤ heightLimit := by
        have := Nat.le_max_right (body.height + 1) rest.height
        simp only [height] at shallow
        simp only [Around.afterLoop]
        omega
      have shown : around.Held (progress.print text).scope :=
        (scope_print progress text).symm ▸ held
      set start := line + lineBreaks text.toList
      rw [outline, run_textOutline, Outline.run]
      refine Mirrors.bindSame (items_mirrors interprets defaults visible shown menus kind sourced _)
        fun items _ => ?_
      refine mirrors_get fun r s same => ?_
      rw [same]
      generalize s.currentItem = entered
      rw [checkDepth_of_held shown (by omega), pure_bind, shown.level]
      have runs : ∀ (inner : Around) (progress : Progress), inner.level = around.level + 1 →
          inner.Held progress.scope → Mirrors (directMirror σ) Alike
            ((body.outline start).run (render.lawfulSurroundings law?) template
              inner.enclosing progress)
            (body.interpret render inner? template start inner) (fun _ => True)
            (Determines (body.progressAfter inner.enclosing progress) fun _ => Alike) :=
        fun inner progress level held => ihBody ordinaryBody start held (level ▸ shallowBody)
      refine Mirrors.bindDetermined (turns_mirrors kind named notLoop runs shown 0 .undefined items)
        fun printed _ => ?_
      refine Mirrors.bindSame (standOn_mirrors kind entered) fun _ _ => ?_
      rw [Progress.print_print, scope_print]
      refine mirrors_map (ihRest ordinaryRest (start + body.breaks) held.afterLoop shallowRest)
        fun others => ?_
      rw [← String.append_assoc]
      exact progressAfter_loop rest around.enclosing progress _ others

end Script

end ThemeTemplates
