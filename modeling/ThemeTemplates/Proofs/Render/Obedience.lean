import ThemeTemplates.Proofs.Render.Pairing
import ThemeTemplates.Proofs.Render.Reflection

/-!
# Calls in renders and in their law

Every function that is not one of the loops comes to what the law says of it: what it asks the host,
the partials it renders, the item it shows or sets. A law in which a partial has been given data
that are not ordinary is lost, and stays so.
-/

namespace ThemeTemplates.Render

open Evaluation

variable {σ α : Type} {library : Library} {levels : Nat} {frames : List LoopFrame}
  {enclosing : List Turn} {render : Render σ} {renderer : Renderer σ}
  {inner? : Option (LawfulRenderer σ)} {site : Site}

theorem checkActive_of_clear (clear : site.scope.Clear) :
    (checkActive site : Evaluation (RenderState σ) Unit) = pure () := by
  unfold checkActive
  rw [clear.find? isHidden_sessionVariable, if_pos rfl]

theorem active_of_clear (clear : site.scope.Clear) : Active site := by
  unfold Active
  rw [clear.find? isHidden_sessionVariable, if_pos rfl]

/-! ### Deeds -/

/-- What a call may undertake that is none of the loops: its value holds no function of theirs. -/
def Deed.Apart : Deed σ → Prop
  | ask _ _ yield => ∀ answer, (yield answer).Avoids OfLoops
  | child _ _ => True
  | next _ _ | pop _ => False

theorem Deed.apart_of_deed? {function : PageFunction}
    (noLoop : function ∉ [PageFunction.loopPush, .loopNext, .loopPop]) {args : List Value}
    {deed : Deed σ} (undertaken : render.deed? function args = some deed) : deed.Apart := by
  unfold deed? at undertaken
  split at undertaken
  case h_1 | h_2 => simp at noLoop
  case h_3 | h_4 =>
    cases undertaken
    exact Value.avoids_ofData
  case h_8 =>
    obtain ⟨_, -, rfl⟩ := Option.map_eq_some_iff.mp undertaken
    trivial
  case h_16 => cases undertaken
  all_goals
    cases undertaken
    first | trivial | exact fun _ => trivial

theorem Deed.apart_of_undertakes? {name : String} (shown : ¬ OfLoops name) {args : List Value}
    {deed : Deed σ} (undertaken : render.undertakes? name args = some deed) : deed.Apart := by
  unfold undertakes? at undertaken
  split at undertaken
  · cases undertaken
    exact Value.avoids_ofData
  · obtain ⟨function, named, asked⟩ := Option.bind_eq_some_iff.mp undertaken
    obtain rfl : function.name = name := by simpa using List.find?_some named
    exact apart_of_deed? (fun loops => shown ⟨function, loops, rfl⟩) asked

/-! ### A lost law -/

theorem failWith_loses {keeps : α → Prop} (failure : Failure) :
    Preserves False (Lost (σ := σ)) (Course.failWith failure) keeps :=
  fun _ lost => ⟨Fault.calm_false _, lost⟩

theorem setItem_loses (item : Data) :
    Preserves False (Lost (σ := σ)) (Course.setItem item) fun _ => True :=
  Meets.change fun _ lost => ⟨trivial, lost⟩

theorem lawfulItem_loses (function : PageFunction) (args : List Value) :
    Preserves False (Lost (σ := σ)) (render.lawfulItem function args) (Value.Avoids OfLoops) := by
  unfold lawfulItem
  split
  · exact fun _ lost => ⟨Value.avoids_ofData _, lost⟩
  · exact Preserves.bind (setItem_loses _) fun _ _ => Preserves.pure trivial
  · exact Preserves.bind (setItem_loses _) fun _ _ => Preserves.pure trivial
  · exact Preserves.complain _

section

variable (obeys : Obeys library levels renderer inner?)

include obeys

theorem lawfulAsk_loses (asked : String) (action : HostAction σ α) :
    Preserves False (Lost (σ := σ)) (render.lawfulAsk inner? enclosing site asked action)
      fun _ => True := by
  unfold lawfulAsk
  have asks : Preserves False (Lost (σ := σ)) (action.carryOut
      (fun course => course.view site.template render.view enclosing site.scope.data?)
      (render.lawfulChild inner? enclosing site.scope)) fun _ => True :=
    Meets.lift fun r lost => ⟨trivial, lost_carryOut obeys _ _ action lost⟩
  refine Preserves.bind asks fun answered _ => ?_
  cases answered with
  | ok answer => exact Preserves.pure trivial
  | error error => exact failWith_loses _

theorem lawfulPartial_loses (template : String) (data : ViewData) :
    Preserves False (Lost (σ := σ)) (render.lawfulPartial inner? enclosing site template data)
      (Value.Avoids OfLoops) := by
  unfold lawfulPartial
  have renders : Preserves False (Lost (σ := σ))
      (render.lawfulChild inner? enclosing site.scope template data) fun _ => True :=
    Meets.lift fun r lost => ⟨trivial, lost_lawfulChild obeys _ template (Unruly.cons lost data)⟩
  refine Preserves.bind renders fun rendered _ => ?_
  cases rendered with
  | ok output => exact Preserves.pure trivial
  | error failure => exact failWith_loses _

theorem lawfulCall_loses {name : String} (shown : ¬ OfLoops name) (args : List Value) :
    Preserves False (Lost (σ := σ)) (render.lawfulCall inner? enclosing site name args)
      (Value.Avoids OfLoops) := by
  unfold lawfulCall
  split
  · next asked action yield undertaken =>
      refine Preserves.bind (lawfulAsk_loses obeys asked action) fun answer _ => Preserves.pure ?_
      exact Deed.apart_of_undertakes? shown undertaken answer
  · exact lawfulPartial_loses obeys _ _
  · split
    · exact lawfulItem_loses _ _
    · exact Preserves.complain _

end

/-! ### Calls by the law -/

theorem failWith_mirrors {keeps : α → Prop} {after : α → α → RenderState σ → Course σ → Prop}
    (failure : Failure) :
    Mirrors (lawMirror library levels frames) (Reflects library levels frames) (failWith failure)
      (Course.failWith failure) keeps after where
  loses := failWith_loses failure
  follows := fun _ _ h => .fault (h.record failure).strays

theorem complain_mirrors {β : Type} {keeps : α → Prop} {complaint : Complaint}
    {after : β → α → RenderState σ → Course σ → Prop} :
    Mirrors (lawMirror library levels frames) (Reflects library levels frames) (complain complaint)
      (complain complaint) keeps after :=
  Mirrors.complain _ fun _ _ h => h.strays

theorem setItem_mirrors (active : Active site) {change : RenderState σ → Data} (item : Data)
    (same : ∀ s, change s = item) :
    Mirrors (lawMirror library levels frames) (Reflects library levels frames) (setItem site change)
      (do
        Course.setItem item
        return .ofString "")
      (Value.Avoids OfLoops) (Same fun _ => Reflects library levels frames) where
  loses := Preserves.bind (setItem_loses item) fun _ _ => Preserves.pure trivial
  follows := by
    intro s r h
    unfold setItem
    simp only [checkActive_of_active active, pure_bind, same]
    exact .value trivial ⟨rfl, h.setItem item⟩

theorem lawfulItem_mirrors (active : Active site) {function : PageFunction}
    (noLoop : function ∉ [PageFunction.loopPush, .loopNext, .loopPop]) {args : List Value}
    (idle : render.deed? function args = none) :
    Mirrors (lawMirror library levels frames) (Reflects library levels frames)
      (render.callFunction renderer site function args) (render.lawfulItem function args)
      (Value.Avoids OfLoops) (Same fun _ => Reflects library levels frames) := by
  have checked : (checkActive site : Evaluation (RenderState σ) Unit) = pure () :=
    checkActive_of_active active
  unfold callFunction
  split
  case h_1 | h_2 | h_3 => simp at noLoop
  case h_4 | h_5 | h_6 | h_7 | h_10 | h_16 | h_17 | h_18 => cases idle
  case h_8 value | h_14 value | h_15 value _ | h_19 value _ =>
    cases value with
    | text text markup => cases idle
    | _ => exact complain_mirrors
  case h_9 value data =>
    cases value with
    | text template markup =>
        have noRecord : ((data |> optional).map Value.toData |>.getD .null).viewData? = none :=
          Option.map_eq_none_iff.mp idle
        simp only [textArgument, pure_bind, childMarkup, checked, noRecord]
        exact complain_mirrors
    | _ => exact complain_mirrors
  case h_11 =>
    simp only [checked, pure_bind]
    refine ⟨lawfulItem_loses .currentItem [], fun s r h => ?_⟩
    exact .value (Value.avoids_ofData _) ⟨congrArg Value.ofData h.item.symm, h⟩
  case h_12 => exact setItem_mirrors active _ fun _ => rfl
  case h_13 => exact setItem_mirrors active render.baseItem fun _ => rfl
  case h_20 =>
    -- no function takes as many arguments, so the law complains of the number as well
    have complains : render.lawfulItem function args =
        complain (if args.length < callFunction.needed function then .missingArgument
          else .tooManyArguments) := by
      unfold lawfulItem misuse
      split
      case h_4 => split <;> first | rfl | simp_all
      all_goals simp_all
    rw [complains]
    exact complain_mirrors

section

variable (obeys : Obeys library levels renderer inner?) (defaults : render.PlainDefaults)
  (lawful : site.scope.Lawful enclosing) (stands : List.Forall₂ Turn.Stands enclosing frames)

include obeys defaults lawful stands

theorem ask_mirrors (asked : String) (action : HostAction σ α) :
    Mirrors (lawMirror library levels frames) (Reflects library levels frames)
      (render.ask renderer site asked action) (render.lawfulAsk inner? enclosing site asked action)
      (fun _ => True) (Same fun _ => Reflects library levels frames) := by
  have performs : Mirrors (lawMirror library levels frames) (Reflects library levels frames)
      (liftM (render.perform renderer site action))
      (liftM (action.carryOut
        (fun course => course.view site.template render.view enclosing site.scope.data?)
        (render.lawfulChild inner? enclosing site.scope)))
      (fun _ => True) (Same fun _ => Reflects library levels frames) :=
    Mirrors.lift (fun _ lost => lost_carryOut obeys _ _ action lost)
      fun _ _ h => perform_tracks obeys defaults lawful stands action h
  unfold ask lawfulAsk
  refine Mirrors.bindSame performs fun answered _ => ?_
  cases answered with
  | ok answer => exact Mirrors.pure trivial fun _ _ h => ⟨rfl, h⟩
  | error error => exact failWith_mirrors _

theorem partial_mirrors (template : String) (data : ViewData) :
    Mirrors (lawMirror library levels frames) (Reflects library levels frames)
      ((Deed.child template data).run render renderer site)
      (render.lawfulPartial inner? enclosing site template data) (Value.Avoids OfLoops)
      (Same fun _ => Reflects library levels frames) := by
  have renders : Mirrors (lawMirror library levels frames) (Reflects library levels frames)
      (liftM (render.renderChild renderer site template data))
      (liftM (render.lawfulChild inner? enclosing site.scope template data))
      (fun _ => True) (Same fun _ => Reflects library levels frames) :=
    Mirrors.lift (fun _ lost => lost_lawfulChild obeys _ template (Unruly.cons lost data))
      fun _ _ h => renderChild_tracks obeys defaults lawful stands template data h
  unfold Deed.run lawfulPartial
  refine Mirrors.bindSame renders fun rendered _ => ?_
  cases rendered with
  | ok output => exact Mirrors.pure trivial fun _ _ h => ⟨rfl, h⟩
  | error failure => exact failWith_mirrors _

theorem call_mirrors {name : String} (shown : ¬ OfLoops name) (args : List Value) :
    Mirrors (lawMirror library levels frames) (Reflects library levels frames)
      ((render.surroundings renderer).call site name args)
      (render.lawfulCall inner? enclosing site name args) (Value.Avoids OfLoops)
      (Same fun _ => Reflects library levels frames) := by
  have active := active_of_clear lawful.toClear
  unfold lawfulCall
  cases undertaken : render.undertakes? name args with
  | some deed =>
      have apart := Deed.apart_of_undertakes? shown undertaken
      rw [call_eq active undertaken]
      cases deed with
      | ask asked action yield =>
          exact Mirrors.bindSame (ask_mirrors obeys defaults lawful stands asked action)
            fun answer _ => Mirrors.pure (apart answer) fun _ _ h => ⟨rfl, h⟩
      | child template data => exact partial_mirrors obeys defaults lawful stands template data
      | next | pop => exact apart.elim
  | none =>
      unfold undertakes? at undertaken
      simp only [surroundings]
      split at undertaken
      · cases undertaken
      · next unknown =>
          rw [if_neg unknown]
          cases named : PageFunction.ofName? name with
          | none => exact complain_mirrors
          | some function =>
              obtain rfl : function.name = name := by simpa using List.find?_some named
              rw [named] at undertaken
              exact lawfulItem_mirrors active (fun loops => shown ⟨function, loops, rfl⟩) undertaken

end

/-! ### Calls of pages -/

/-- A state of a render and the course of its law inside some loops, at a scope that shows them. -/
structure Inside (library : Library) (levels : Nat) (frames : List LoopFrame)
    (enclosing : List Turn) (scope : Scope) (s : RenderState σ) (r : Course σ) : Prop where
  lawful : scope.Lawful enclosing
  stands : List.Forall₂ Turn.Stands enclosing frames
  reflects : Reflects library levels frames s r

theorem Inside.strays {scope : Scope} {s : RenderState σ} {r : Course σ}
    (h : Inside library levels frames enclosing scope s r) : Strays library levels frames s r :=
  h.reflects.strays

theorem calls_mirror (obeys : Obeys library levels renderer inner?)
    (defaults : render.PlainDefaults) :
    CallsMirror OfLoops (lawMirror library levels frames)
      (Inside library levels frames enclosing site.scope) (render.surroundings renderer)
      (render.lawfulSurroundings inner? enclosing) site := by
  intro name args shown _
  refine ⟨lawfulCall_loses obeys shown args, ?_⟩
  rintro s r ⟨lawful, stands, h⟩
  refine ((call_mirrors obeys defaults lawful stands shown args).weaken (fun _ _ h => h) ?_).follows
    s r h
  rintro _ _ _ _ - ⟨same, h⟩
  exact ⟨same, lawful, stands, h⟩

end ThemeTemplates.Render
