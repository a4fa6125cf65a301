import ThemeTemplates.Proofs.Data.Fields
import ThemeTemplates.Proofs.Page.History
import ThemeTemplates.Proofs.Render.Child
import ThemeTemplates.Proofs.Render.Rendering

/-!
# The failure slot

While a page goes on, no failure is kept, however many children have failed by then. A call of a
function that fails at something it undertakes keeps a failure, and that stops the page; every other
fault leaves the slot empty. The render of the page takes what is kept when it ends.
-/

namespace ThemeTemplates

variable {σ α : Type}

/-- A template does not compile, for a reason that is a failure of the engine. -/
def Library.Rejects (library : Library) (failure : Failure) : Prop :=
  ∃ template fault, library.compile template = .error fault ∧ fault.carried? = some failure

namespace Fault

/-- A fault of a function itself: what it carries is no more than that the page belongs to no
render. -/
structure OfCall (fault : Fault) : Prop where
  cause : ∃ complaint, fault.cause = .complaint complaint
  carried : ∀ failure, fault.carried? = some failure →
    ∃ template, failure = .noActiveRender template

/-- A fault of a function or of a library. If a template is missing, there is one that the loader
does not have; if a page cannot be read, it is that of a template which does not compile. -/
structure Explained (library : Library) (fault : Fault) : Prop where
  carried : ∀ failure, fault.carried? = some failure →
    (∃ template, failure = .noActiveRender template) ∨ library.Rejects failure
  missing : fault.cause = .missingTemplate → ∃ template, library.loader.load template = .ok none
  malformed : ∀ reason, fault.cause = .unreadablePage reason →
    ∃ template fault, library.compile template = .error fault ∧ fault.cause = .unreadablePage reason

theorem ofCall_ofComplaint (complaint : Complaint) : (ofComplaint complaint).OfCall :=
  ⟨⟨complaint, rfl⟩, fun _ found => nomatch found⟩

theorem OfCall.explained {fault : Fault} (h : fault.OfCall) (library : Library) :
    fault.Explained library := by
  obtain ⟨complaint, cause⟩ := h.cause
  refine ⟨fun failure found => .inl (h.carried failure found), fun missing =>
    ?_, fun reason malformed => ?_⟩
  · cases cause.symm.trans missing
  · cases cause.symm.trans malformed

theorem cause_ofPageError (template : String) (error : PageError) :
    (ofPageError template error).cause ≠ .missingTemplate := by
  unfold ofPageError
  cases error.flaw <;> exact FaultCause.noConfusion

theorem explained_of_compile {library : Library} {template : String} {fault : Fault}
    (h : library.compile template = .error fault) : fault.Explained library := by
  refine ⟨fun failure found => .inr ⟨template, fault, h, found⟩, fun missing => ⟨template, ?_⟩,
    fun reason malformed => ⟨template, fault, h, malformed⟩⟩
  cases Library.refuses_iff.mpr h with
  | missing absent => exact absent
  | unreadable | directives => cases missing
  | page => exact absurd missing (cause_ofPageError _ _)

end Fault

def RenderState.entered (s : RenderState σ) : RenderState σ :=
  { s with session := { s.session with depth := s.session.depth + 1 } }

namespace Render

open Evaluation

variable {kept : String → Page → Prop} {depth : Nat}

/-- So many child renders are in progress, and the pages compiled so far are of a kind. -/
structure Placed (kept : String → Page → Prop) (depth : Nat) (s : RenderState σ) : Prop where
  depth : s.session.depth = depth
  compiled : ∀ name page, (name, page) ∈ s.compiled → kept name page

structure Idle (kept : String → Page → Prop) (depth : Nat) (s : RenderState σ) : Prop
    extends Placed kept depth s where
  failure : s.session.failure = none

/-- From every idle state, a template runs to its end and leaves one, or a fault stops it. -/
def Renderer.Settles (kept : String → Page → Prop) (renderer : Renderer σ) : Prop :=
  ∀ depth template given, (renderer template given).Meets (Idle kept depth)
    (fun _ => Idle kept depth) fun _ => Placed kept depth

/-! ### Children and hosts -/

theorem childRun_eq_some_iff {render : Render σ} {renderer : Renderer σ} {site : Site}
    {template : String} {data : ViewData} {s : RenderState σ}
    {outcome : Except Fault String × RenderState σ} :
    render.childRun renderer site template data s = some outcome ↔
      ∃ merged, View.resolveChild render.defaults template site.scope.inheritable data =
        .ok merged ∧
        s.session.depth < Session.depthLimit ∧
        (renderer template (context merged)).run.run s.entered = outcome := by
  unfold childRun Session.enter
  cases View.resolveChild render.defaults template site.scope.inheritable data with
  | error failure => simp
  | ok merged =>
      by_cases room : s.session.depth < Session.depthLimit
      · simp [room, RenderState.entered]
      · simp [room]

theorem Idle.enter {s : RenderState σ} (hs : Idle kept depth s) :
    Idle kept (depth + 1) s.entered :=
  ⟨⟨congrArg (· + 1) hs.depth, hs.compiled⟩, hs.failure⟩

theorem Idle.afterChild {stop : RenderState σ} (h : Idle kept (depth + 1) stop) (s : RenderState σ)
    (result : Except Failure String) : Idle kept depth (afterChild s stop result).2 := by
  have left : stop.session.depth - 1 = depth := by rw [h.depth, Nat.add_sub_cancel]
  unfold Render.afterChild Session.leave
  cases result with
  | ok output =>
      dsimp only
      split <;> exact ⟨⟨left, h.compiled⟩, h.failure⟩
  | error failure => exact ⟨⟨left, h.compiled⟩, h.failure⟩

section

variable {render : Render σ} {renderer : Renderer σ} (settles : renderer.Settles kept) (site : Site)

include settles

theorem renderChild_idle (template : String) (data : ViewData) {s : RenderState σ}
    (hs : Idle kept depth s) :
    Idle kept depth ((render.renderChild renderer site template data).run s).2 := by
  cases ran : render.childRun renderer site template data s with
  | none =>
      obtain ⟨_, unchanged⟩ := renderChild_of_childRun_eq_none ran
      rw [unchanged]
      exact hs
  | some outcome =>
      obtain ⟨result, stop⟩ := outcome
      rw [renderChild_of_childRun_eq_some ran]
      obtain ⟨merged, _, _, ran⟩ := childRun_eq_some_iff.mp ran
      have ended := settles (depth + 1) template (context merged) _ hs.enter
      rw [ran] at ended
      cases result with
      | ok output => exact ended.afterChild s _
      | error fault =>
          have taken : Idle kept (depth + 1) ((takeFailure template fault).run stop).2 :=
            ⟨⟨ended.depth, ended.compiled⟩, rfl⟩
          exact taken.afterChild s _

/-- Whatever a host does, and whichever of its children fail, the slot is empty afterwards. -/
theorem perform_idle (action : HostAction σ α) {s : RenderState σ} (hs : Idle kept depth s) :
    Idle kept depth ((render.perform renderer site action).run s).2 := by
  induction action generalizing s with
  | answer | fail => exact hs
  | look resume ih => exact ih _ hs
  | readState resume ih => exact ih _ hs
  | writeState state resume ih => exact ih ⟨⟨hs.depth, hs.compiled⟩, hs.failure⟩
  | renderChild template data resume ih =>
      exact ih _ (renderChild_idle settles site template data hs)

end

/-! ### What functions undertake -/

/-- What a call of a function undertakes beyond the reading of its arguments, where that can
fail. -/
inductive Deed (σ : Type) : Type 1 where
  /-- It asks the host something, under a name, and makes a value of the answer. -/
  | ask {α : Type} (asked : String) (action : HostAction σ α) (yield : α → Value)
  /-- It moves the innermost loop on to an item. -/
  | next (kind : LoopKind) (item : Data)
  | pop (kind : LoopKind)
  | child (template : String) (data : ViewData)

namespace Deed

def run (render : Render σ) (renderer : Renderer σ) (site : Site) :
    Deed σ → Evaluation (RenderState σ) Value
  | ask asked action yield => do return yield (← render.ask renderer site asked action)
  | next kind item => changeLoops fun session => session.nextLoop kind item
  | pop kind => changeLoops fun session => session.popLoop kind
  | child template data => do
    match ← render.renderChild renderer site template data with
    | .ok output => return .markup output
    | .error failure => failWith failure

def failure? (render : Render σ) (renderer : Renderer σ) (site : Site) (s : RenderState σ) :
    Deed σ → Option Failure
  | ask asked action _ =>
    match ((render.perform renderer site action).run s).1 with
    | .ok _ => none
    | .error source => some (.collaborator asked source)
  | next kind item => misuse? (s.session.nextLoop kind item)
  | pop kind => misuse? (s.session.popLoop kind)
  | child template data =>
    match ((render.renderChild renderer site template data).run s).1 with
    | .ok _ => none
    | .error failure => some failure
where
  misuse? : Except LoopStackError Session → Option Failure
    | .ok _ => none
    | .error error => some (.loopStack error)

section

variable {render : Render σ} {renderer : Renderer σ} {site : Site} {s : RenderState σ}
  {failure : Failure}

theorem failure?_ask {asked : String} {action : HostAction σ α} {yield : α → Value} :
    (ask asked action yield).failure? render renderer site s = some failure ↔
      ∃ source t, (render.perform renderer site action).run s = (.error source, t) ∧
        failure = .collaborator asked source := by
  cases came : (render.perform renderer site action).run s with
  | mk result t =>
      cases result with
      | ok value =>
          refine ⟨fun fails => ?_, ?_⟩
          · simp [failure?, came] at fails
          · rintro ⟨_, _, ⟨⟩, _⟩
      | error source =>
          refine ⟨fun fails => ⟨source, t, rfl, ?_⟩, ?_⟩
          · simpa [failure?, came, eq_comm] using fails
          · rintro ⟨_, _, ⟨⟩, rfl⟩
            simp [failure?, came]

theorem failure?_misuse {result : Except LoopStackError Session} :
    failure?.misuse? result = some failure ↔
      ∃ error, result = .error error ∧ failure = .loopStack error := by
  cases result <;> simp [failure?.misuse?, eq_comm]

theorem failure?_child {template : String} {data : ViewData} :
    (child template data).failure? render renderer site s = some failure ↔
      ((render.renderChild renderer site template data).run s).1 = .error failure := by
  cases came : ((render.renderChild renderer site template data).run s).1 <;> simp [failure?, came]

end

end Deed

def deed? (render : Render σ) : PageFunction → List Value → Option (Deed σ)
  | .loopNext, [item, .text kind _] =>
    (LoopKind.ofName? kind).map fun kind => .next kind item.toData
  | .loopPop, [.text kind _] => (LoopKind.ofName? kind).map .pop
  | .currentQuery, [] => some (.ask "current_query" render.host.currentQuery Value.ofData)
  | .navMenu, [menu] => some (.ask "nav_menu" (render.host.navMenu menu.toData) Value.ofData)
  | .paginate, [] => some (.ask "paginate" (render.host.paginate (.record [])) Value.markup)
  | .paginate, [config] =>
    some (.ask "paginate" (render.host.paginate (links (optional config))) Value.markup)
  | .renderChild, [.text template _] => some (.child template [])
  | .renderChild, [.text template _, data] =>
    (given (optional data)).viewData?.map fun data => .child template data
  | .postType, [] => some (.ask "post_type" render.host.postType Value.ofString)
  | .can, [.text action _] => some (.ask "can" (render.host.can action .null) Value.bool)
  | .can, [.text action _, subject] =>
    some (.ask "can" (render.host.can action (given (optional subject))) Value.bool)
  | .canAny, [actions] =>
    some (.ask "can_any" (render.host.canAny (abilities actions) .null) Value.bool)
  | .canAny, [actions, subject] =>
    some (.ask "can_any" (render.host.canAny (abilities actions) (given (optional subject)))
      Value.bool)
  | .auth, [] => some (.ask "current_user" render.host.currentUser fun user => .bool user.truthy)
  | .invoke, .text name _ :: args =>
    some (.ask name (render.host.invoke name (args.map Value.toData)) Value.markup)
  | _, _ => none
where
  given (value : Option Value) : Data :=
    (value.map Value.toData).getD .null
  links (config : Option Value) : Data :=
    match given config with
    | .null => .record []
    | config => config
  abilities (actions : Value) : List String :=
    match actions.toData with
    | .list items => items.map Data.display
    | single => [single.display]

/-- What a call undertakes. The functions of the host stand before those of the directives. -/
def undertakes? (render : Render σ) (name : String) (args : List Value) : Option (Deed σ) :=
  if render.host.functions.contains name then
    some (.ask name (render.host.call name (args.map Value.toData)) Value.ofData)
  else (PageFunction.ofName? name).bind fun function => render.deed? function args

def Active (site : Site) : Prop :=
  site.scope.find? sessionVariable = some .session

theorem checkActive_of_active {site : Site} (h : Active site) :
    (checkActive site : Evaluation (RenderState σ) Unit) = pure () := by
  unfold checkActive
  rw [h]

/-- An evaluation that keeps no failure, also where a fault stops it. -/
def Quiet (evaluation : Evaluation (RenderState σ) α) : Prop :=
  ∀ kept depth, evaluation.Meets (Idle kept depth) (fun _ => Idle kept depth)
    fun fault s => fault.OfCall ∧ Idle kept depth s

namespace Quiet

variable {β : Type}

protected theorem pure (value : α) : Quiet (Pure.pure value : Evaluation (RenderState σ) α) :=
  fun _ _ => Meets.pure fun _ hs => hs

protected theorem complain (complaint : Complaint) :
    Quiet (Evaluation.complain complaint : Evaluation (RenderState σ) α) :=
  fun _ _ => Meets.complain fun _ hs => ⟨Fault.ofCall_ofComplaint _, hs⟩

protected theorem complain_bind (complaint : Complaint) (next : α → Evaluation (RenderState σ) β) :
    Quiet (Evaluation.complain complaint >>= next) :=
  fun _ _ _ hs => ⟨Fault.ofCall_ofComplaint _, hs⟩

protected theorem bind {first : Evaluation (RenderState σ) α}
    {next : α → Evaluation (RenderState σ) β} (h : Quiet first)
    (hnext : ∀ value, Quiet (next value)) :
    Quiet (first >>= next) :=
  fun kept depth => Meets.bind _ (h kept depth) fun value => hnext value kept depth

protected theorem get : Quiet (MonadState.get : Evaluation (RenderState σ) (RenderState σ)) :=
  fun _ _ => Meets.get fun _ hs => hs

protected theorem change {change : RenderState σ → Session}
    (failure : ∀ s, (change s).failure = s.session.failure)
    (depth : ∀ s, (change s).depth = s.session.depth) :
    Quiet (modify fun s => { s with session := change s } : Evaluation (RenderState σ) PUnit) :=
  fun _ _ => Meets.change fun s hs =>
    ⟨⟨(depth s).trans hs.depth, hs.compiled⟩, (failure s).trans hs.failure⟩

end Quiet

/-! ### Calls that undertake nothing -/

section

variable {render : Render σ} {renderer : Renderer σ} {site : Site}

theorem quiet_checkActive {next : Evaluation (RenderState σ) α} (h : Active site → Quiet next) :
    Quiet (do checkActive site; next) := by
  by_cases active : Active site
  · rw [checkActive_of_active active, pure_bind]
    exact h active
  · have stops : (checkActive site : Evaluation (RenderState σ) Unit) =
        throw (.carrying (.noActiveRender site.template) none) := by
      unfold checkActive
      split
      · next found => exact absurd found active
      · rfl
    rw [stops]
    intro kept depth s hs
    refine ⟨⟨⟨_, rfl⟩, ?_⟩, hs⟩
    rintro failure ⟨⟩
    exact ⟨site.template, rfl⟩

theorem quiet_textArgument {value : Value} {next : String → Evaluation (RenderState σ) α}
    (h : ∀ text isMarkup, value = .text text isMarkup → Quiet (next text)) :
    Quiet (textArgument value >>= next) := by
  cases value with
  | text text isMarkup =>
      simp only [textArgument, pure_bind]
      exact h text isMarkup rfl
  | _ => exact Quiet.complain_bind .textExpected next

theorem loopPush_quiet (source : Value) (kind : String) :
    Quiet (loopPush site source kind : Evaluation (RenderState σ) Value) := by
  refine quiet_checkActive fun _ => Quiet.bind ?_ fun kind => ?_
  · unfold loopKind
    split
    · exact Quiet.pure _
    · exact Quiet.complain _
  · split
    · exact Quiet.bind (Quiet.change (fun _ => rfl) fun _ => rfl) fun _ => Quiet.pure _
    · exact Quiet.complain _

theorem loopKind_quiet {name : String} (unknown : LoopKind.ofName? name = none)
    (next : LoopKind → Evaluation (RenderState σ) α) : Quiet (loopKind name >>= next) := by
  unfold loopKind
  rw [unknown]
  exact Quiet.complain_bind _ next

theorem setItem_quiet (item : RenderState σ → Data) : Quiet (setItem site item) :=
  quiet_checkActive fun _ =>
    Quiet.bind (Quiet.change (fun _ => rfl) fun _ => rfl) fun _ => Quiet.pure _

theorem callFunction_quiet {function : PageFunction} {args : List Value}
    (idle : Active site → render.deed? function args = none) :
    Quiet (render.callFunction renderer site function args) := by
  unfold callFunction
  split
  case h_1 => exact quiet_textArgument fun kind _ _ => loopPush_quiet _ kind
  case h_2 item _ =>
    refine quiet_textArgument ?_
    rintro kind _ rfl
    refine quiet_checkActive fun active => loopKind_quiet ?_ _
    simpa [deed?] using idle active
  case h_3 =>
    refine quiet_textArgument ?_
    rintro kind _ rfl
    refine quiet_checkActive fun active => loopKind_quiet ?_ _
    simpa [deed?] using idle active
  case h_4 | h_5 | h_6 | h_7 | h_10 | h_16 | h_17 | h_18 =>
    exact quiet_checkActive fun active => nomatch idle active
  case h_8 =>
    refine quiet_textArgument ?_
    rintro template _ rfl
    exact quiet_checkActive fun active => nomatch idle active
  case h_9 =>
    refine quiet_textArgument ?_
    rintro template _ rfl
    refine quiet_checkActive fun active => ?_
    split
    · exact Quiet.complain _
    · next fields found =>
        have noRecord := Option.map_eq_none_iff.mp (idle active)
        cases noRecord.symm.trans found
  case h_11 => exact quiet_checkActive fun _ => Quiet.bind Quiet.get fun _ => Quiet.pure _
  case h_12 | h_13 => exact setItem_quiet _
  case h_14 | h_15 | h_19 =>
    refine quiet_textArgument ?_
    rintro text _ rfl
    exact quiet_checkActive fun active => nomatch idle active
  case h_20 => exact Quiet.complain _

/-- A call of a function of the directives in a render comes to what it undertakes. -/
theorem callFunction_eq {function : PageFunction} {args : List Value} {deed : Deed σ}
    (active : Active site) (undertaken : render.deed? function args = some deed) :
    render.callFunction renderer site function args = deed.run render renderer site := by
  have checked : (checkActive site : Evaluation (RenderState σ) Unit) = pure () :=
    checkActive_of_active active
  unfold deed? at undertaken
  split at undertaken
  case h_1 | h_2 =>
    obtain ⟨kind, known, rfl⟩ := Option.map_eq_some_iff.mp undertaken
    simp only [callFunction, textArgument, pure_bind, loopNext, loopPop, checked, loopKind, known]
    rfl
  case h_8 =>
    obtain ⟨fields, found, rfl⟩ := Option.map_eq_some_iff.mp undertaken
    unfold deed?.given at found
    simp only [callFunction, textArgument, pure_bind, childMarkup, checked, found]
    rfl
  case h_16 => cases undertaken
  all_goals
    cases undertaken
    simp only [callFunction, callFunction.paginate, callFunction.can, callFunction.canAny,
      textArgument, pure_bind, childMarkup, checked]
    rfl

/-- A call that undertakes nothing, or whose page belongs to no render, keeps no failure. -/
theorem call_quiet {name : String} {args : List Value}
    (idle : Active site → render.undertakes? name args = none) :
    Quiet ((render.surroundings renderer).call site name args) := by
  unfold undertakes? at idle
  simp only [surroundings]
  split
  · next known =>
      rw [if_pos known] at idle
      exact quiet_checkActive fun active => nomatch idle active
  · next unknown =>
      rw [if_neg unknown] at idle
      cases named : PageFunction.ofName? name with
      | none => exact Quiet.complain _
      | some function =>
          refine callFunction_quiet fun active => ?_
          simpa [named] using idle active

theorem call_eq {name : String} {args : List Value} {deed : Deed σ} (active : Active site)
    (undertaken : render.undertakes? name args = some deed) :
    (render.surroundings renderer).call site name args = deed.run render renderer site := by
  unfold undertakes? at undertaken
  simp only [surroundings]
  split
  · next known =>
      rw [if_pos known] at undertaken
      cases undertaken
      simp only [callHost, checkActive_of_active active, pure_bind, Deed.run]
  · next unknown =>
      rw [if_neg unknown] at undertaken
      cases named : PageFunction.ofName? name with
      | none =>
          rw [named] at undertaken
          cases undertaken
      | some function =>
          rw [named] at undertaken
          exact callFunction_eq active undertaken

/-! ### What calls leave in the slot -/

def keeps? (render : Render σ) (renderer : Renderer σ) (call : Invocation (RenderState σ)) :
    Option Failure :=
  match call.site.scope.find? sessionVariable with
  | some .session =>
    (render.undertakes? call.name call.args).bind
      (Deed.failure? render renderer call.site call.found)
  | _ => none

theorem Idle.keep {s : RenderState σ} (h : Idle kept depth s) (failure : Failure) :
    Placed kept depth { s with session := s.session.record failure } ∧
      (s.session.record failure).failure = some failure := by
  refine ⟨⟨h.depth, h.compiled⟩, ?_⟩
  unfold Session.record
  rw [h.failure]
  rfl

theorem failWith_keeps (failure : Failure) (after : α → RenderState σ → Prop) :
    (failWith failure : Evaluation (RenderState σ) α).Meets (Idle kept depth) after fun fault t =>
      fault.OfCall ∧ Placed kept depth t ∧ t.session.failure = some failure :=
  fun _ hs => ⟨Fault.ofCall_ofComplaint _, hs.keep failure⟩

theorem loopValue_quiet : Quiet (loopValue : Evaluation (RenderState σ) Value) := by
  refine Quiet.bind Quiet.get fun s => ?_
  split <;> exact Quiet.pure _

theorem changeLoops_keeps (change : Session → Except LoopStackError Session) {s : RenderState σ}
    (hs : Idle kept depth s)
    (untouched : ∀ session, change s.session = .ok session →
      session.failure = s.session.failure ∧ session.depth = s.session.depth) :
    (changeLoops change).Meets (· = s)
      (fun _ t => Idle kept depth t ∧ Deed.failure?.misuse? (change s.session) = none)
      fun fault t => fault.OfCall ∧ Placed kept depth t ∧
        t.session.failure = Deed.failure?.misuse? (change s.session) := by
  intro t same
  rw [same]
  unfold changeLoops
  rw [run_get_bind]
  cases changed : change s.session with
  | ok session =>
      obtain ⟨failure, depths⟩ := untouched session changed
      have ended : Idle kept depth { s with session } :=
        ⟨⟨depths.trans hs.depth, hs.compiled⟩, failure.trans hs.failure⟩
      exact (loopValue_quiet kept depth).weaken (fun _ _ h => ⟨h, rfl⟩)
        (fun _ _ h => ⟨h.1, h.2.toPlaced, h.2.failure⟩) _ ended
  | error error => exact failWith_keeps (.loopStack error) (fun (_ : Value) _ => False) s hs

/-- A deed is done and leaves the slot empty, or it fails and keeps its failure. -/
theorem run_deed (settles : renderer.Settles kept) (deed : Deed σ) {s : RenderState σ}
    (hs : Idle kept depth s) :
    (deed.run render renderer site).Meets (· = s)
      (fun _ t => Idle kept depth t ∧ deed.failure? render renderer site s = none)
      fun fault t => fault.OfCall ∧ Placed kept depth t ∧
        t.session.failure = deed.failure? render renderer site s := by
  cases deed with
  | @ask α asked action yield =>
      have performed : Idle kept depth ((render.perform renderer site action).run s).2 :=
        perform_idle settles site action hs
      refine Meets.bind
        (fun _ t => Idle kept depth t ∧
          (Deed.ask asked action yield).failure? render renderer site s = none) ?_
        fun _ => Meets.pure fun _ ht => ht
      unfold ask
      refine Meets.bind (fun result t => (render.perform renderer site action).run s = (result, t))
        (Meets.lift fun _ same => same ▸ rfl) fun result => ?_
      intro t came
      rw [came] at performed
      cases result with
      | ok value => exact ⟨performed, by simp only [Deed.failure?, came]⟩
      | error source =>
          have fails : (Deed.ask asked action yield).failure? render renderer site s =
              some (.collaborator asked source) := by simp only [Deed.failure?, came]
          rw [fails]
          exact failWith_keeps _ (fun (_ : α) _ => False) t performed
  | next kind item =>
      refine changeLoops_keeps (fun session => session.nextLoop kind item) hs
        fun session changed => ?_
      unfold Session.nextLoop at changed
      cases advanced : s.session.loops.advance kind <;> rw [advanced] at changed <;> cases changed
      exact ⟨rfl, rfl⟩
  | pop kind =>
      refine changeLoops_keeps (fun session => session.popLoop kind) hs fun session changed => ?_
      unfold Session.popLoop at changed
      cases popped : s.session.loops.pop kind <;> rw [popped] at changed <;> cases changed
      exact ⟨rfl, rfl⟩
  | child template data =>
      have left : Idle kept depth ((render.renderChild renderer site template data).run s).2 :=
        renderChild_idle settles site template data hs
      unfold Deed.run
      refine Meets.bind
        (fun result t => (render.renderChild renderer site template data).run s = (result, t))
        (Meets.lift fun _ same => same ▸ rfl) fun result => ?_
      intro t came
      rw [came] at left
      cases result with
      | ok output => exact ⟨left, by simp only [Deed.failure?, came]⟩
      | error failure =>
          have fails : (Deed.child template data).failure? render renderer site s =
              some failure := by
            simp only [Deed.failure?, came]
          rw [fails]
          exact failWith_keeps _ (fun (_ : Value) _ => False) t left

theorem keeps?_of_active {call : Invocation (RenderState σ)} (active : Active call.site) :
    render.keeps? renderer call = (render.undertakes? call.name call.args).bind
      (Deed.failure? render renderer call.site call.found) := by
  unfold keeps?
  rw [active]

theorem keeps?_of_not_active {call : Invocation (RenderState σ)} (inactive : ¬ Active call.site) :
    render.keeps? renderer call = none := by
  unfold keeps?
  split
  · next active => exact absurd active inactive
  · rfl

/-- An answered call leaves the slot empty. One that stops the page leaves there what it keeps. -/
theorem answer_keeps (render : Render σ) (settles : renderer.Settles kept)
    (call : Invocation (RenderState σ)) (hs : Idle kept depth call.found) :
    ((render.surroundings renderer).call call.site call.name call.args).Meets (· = call.found)
      (fun _ t => Idle kept depth t ∧ render.keeps? renderer call = none)
      fun fault t => fault.OfCall ∧ Placed kept depth t ∧
        t.session.failure = render.keeps? renderer call := by
  by_cases undertakes : Active call.site ∧
      ∃ deed, render.undertakes? call.name call.args = some deed
  · obtain ⟨active, deed, undertaken⟩ := undertakes
    have same : render.keeps? renderer call = deed.failure? render renderer call.site
        call.found := by
      rw [keeps?_of_active active, undertaken]
      rfl
    rw [call_eq active undertaken, same]
    exact run_deed settles deed hs
  · have idle : Active call.site → render.undertakes? call.name call.args = none := fun active =>
      Option.eq_none_iff_forall_ne_some.mpr fun deed undertaken =>
        undertakes ⟨active, deed, undertaken⟩
    have nothing : render.keeps? renderer call = none := by
      by_cases active : Active call.site
      · rw [keeps?_of_active active, idle active]
        rfl
      · exact keeps?_of_not_active active
    rw [nothing]
    rintro _ rfl
    exact (call_quiet idle kept depth).weaken (fun _ _ h => ⟨h, rfl⟩)
      (fun _ _ h => ⟨h.1, h.2.toPlaced, h.2.failure⟩) _ hs

/-! ### Pages -/

variable (compiles : ∀ template page, render.library.compile template = .ok page →
    kept template page)

include compiles

theorem fetch_idle (template : String) {s : RenderState σ} (hs : Idle kept depth s) :
    Idle kept depth ((render.fetch template).run.run s).2 := by
  refine ⟨⟨hs.depth, fun name page hmem => ?_⟩, hs.failure⟩
  change (name, page) ∈ (render.library.fetch s.compiled template).2 at hmem
  rcases Library.mem_fetch hmem with known | ⟨rfl, compiled⟩
  · exact hs.compiled name page known
  · exact compiles name page compiled

omit compiles in
theorem run_fetch_of {template : String} {s : RenderState σ} {result : Except Fault Page}
    {compiled : Fields Page}
    (fetched : render.library.fetch s.compiled template = (result, compiled)) :
    (render.fetch template).run.run s = (result, { s with compiled }) := by
  have run : (render.fetch template).run.run s =
      ((render.library.fetch s.compiled template).1,
        { s with compiled := (render.library.fetch s.compiled template).2 }) := rfl
  rw [run, fetched]

omit compiles in
theorem explained_of_fetch {template : String} {s t : RenderState σ} {fault : Fault}
    (h : (render.fetch template).run.run s = (.error fault, t)) :
      fault.Explained render.library := by
  have failed : (render.library.fetch s.compiled template).1 = .error fault := congrArg Prod.fst h
  exact Fault.explained_of_compile (Library.fetch_eq_error (Prod.ext failed rfl)).2

theorem surroundings_keep (settles : renderer.Settles kept) :
    (render.surroundings renderer).Keeps (Idle kept depth) (Fault.Explained render.library) where
  call := by
    intro call value s found answered
    have ended := answer_keeps render settles call found _ rfl
    unfold Surroundings.answer at answered
    rw [answered] at ended
    exact ended.1
  unsearched := by
    intro call fault s found answered
    have ended := answer_keeps render settles call found _ rfl
    unfold Surroundings.answer at answered
    rw [answered] at ended
    exact ended.1.cause
  load := fun template s hs => fetch_idle compiles template hs
  unloaded := fun template s fault t _ failed => explained_of_fetch failed
  complaint := fun complaint => (Fault.ofCall_ofComplaint complaint).explained render.library
  located := fun fault place h =>
    ⟨fun failure found => h.carried failure (fault.carried?_located place ▸ found),
      fun missing => h.missing (fault.cause_located place ▸ missing),
      fun reason malformed => h.malformed reason (fault.cause_located place ▸ malformed)⟩
  wrapping := fun fault complaint h =>
    ⟨h.carried, FaultCause.noConfusion, fun _ => FaultCause.noConfusion⟩
  missing := fun fault h missing =>
    ⟨fun _ found => (nomatch found), fun _ => h.missing missing, fun _ => FaultCause.noConfusion⟩

/-- How a page of a render ends. A failure that is kept was kept by the last call, and nothing was
kept before. -/
theorem printPage_idle (settles : renderer.Settles kept) (page : Page) (given : Fields Value)
    {s : RenderState σ} (hs : Idle kept depth s) :
    match (printPage (render.surroundings renderer) page given).run.run s with
    | (.ok _, t) => Idle kept depth t
    | (.error fault, t) => Placed kept depth t ∧ fault.Explained render.library ∧
        ∀ failure, t.session.failure = some failure →
          ∃ call ∈ (render.surroundings renderer).calls page given s,
            Idle kept depth call.found ∧ render.keeps? renderer call = some failure := by
  have keep : (render.surroundings renderer).Keeps (Idle kept depth)
      (Fault.Explained render.library) :=
    surroundings_keep compiles settles
  have ended := Surroundings.printPage_calls keep page given hs
  revert ended
  generalize (render.surroundings renderer).calls page given s = calls
  cases (printPage (render.surroundings renderer) page given).run.run s with
  | mk result t =>
      cases result with
      | ok output => exact fun ended => ended.1
      | error fault =>
          intro ended
          cases ended with
          | @byCall earlier call fault' _ _ answered found failed carried cause =>
              have left := answer_keeps render settles call found _ rfl
              unfold Surroundings.answer at failed
              rw [failed] at left
              obtain ⟨ofCall, placed, keeps⟩ := left
              refine ⟨placed, ?_, fun failure stored => ?_⟩
              · have byCall : fault.OfCall :=
                  ⟨cause, fun failure found => ofCall.carried failure (carried ▸ found)⟩
                exact byCall.explained render.library
              · exact ⟨call, List.mem_append_right _ List.mem_cons_self, found, keeps ▸ stored⟩
          | between answered found foreseen =>
              refine ⟨found.toPlaced, foreseen, fun failure stored => ?_⟩
              rw [found.failure] at stored
              cases stored

end

theorem renderWithin_settles {render : Render σ}
    (compiles : ∀ template page, render.library.compile template = .ok page → kept template page)
    (levels : Nat) : (render.renderWithin levels).Settles kept := by
  induction levels with
  | zero => exact fun depth template given => Meets.complain fun _ hs => hs.toPlaced
  | succ levels ih =>
      intro depth template given
      unfold renderWithin
      refine Meets.bind (fun _ => Idle kept depth) ?_ fun page => ?_
      · intro s hs
        have fetched := fetch_idle compiles template hs
        cases came : (render.fetch template).run.run s with
        | mk result t =>
            rw [came] at fetched
            cases result with
            | ok page => exact fetched
            | error fault => exact fetched.toPlaced
      · intro s hs
        have ended := printPage_idle compiles ih page given hs
        revert ended
        cases (printPage (render.surroundings (render.renderWithin levels)) page given).run.run
          s with
        | mk result t =>
            cases result with
            | ok output => exact id
            | error fault => exact fun ended => ended.1

end Render

end ThemeTemplates
