import ThemeTemplates.Page.Evaluation

/-!
# Contracts of evaluations

What an evaluation does to the state around it, as a precondition and two postconditions: one for
the value it yields, one for the fault it stops with. The rules follow the combinators that
evaluations are written with.
-/

namespace ThemeTemplates.Evaluation

variable {σ α β : Type}

theorem run_bind (first : Evaluation σ α) (next : α → Evaluation σ β) (s : σ) :
    (first >>= next).run.run s =
      match first.run.run s with
      | (.ok value, t) => (next value).run.run t
      | (.error fault, t) => (.error fault, t) := by
  unfold ExceptT.run StateT.run
  simp only [bind, ExceptT.bind, ExceptT.mk, StateT.bind, ExceptT.bindCont]
  cases first s with
  | mk result t => cases result <;> rfl

theorem run_get_bind (next : σ → Evaluation σ β) (s : σ) :
    (get >>= next).run.run s = (next s).run.run s := rfl

theorem run_tryCatch (evaluation : Evaluation σ α) (handler : Fault → Evaluation σ α) (s : σ) :
    (tryCatch evaluation handler).run.run s =
      match evaluation.run.run s with
      | (.ok value, t) => (.ok value, t)
      | (.error fault, t) => (handler fault).run.run t := by
  unfold ExceptT.run StateT.run
  simp only [tryCatch, tryCatchThe, MonadExceptOf.tryCatch, ExceptT.tryCatch, ExceptT.mk, bind,
    StateT.bind]
  cases evaluation s with
  | mk result t => cases result <;> rfl

/-- From every state that satisfies `before`, an evaluation yields a value as `after` says or stops
with a fault as `stopped` says. -/
def Meets (evaluation : Evaluation σ α) (before : σ → Prop) (after : α → σ → Prop)
    (stopped : Fault → σ → Prop) : Prop :=
  ∀ s, before s →
    match evaluation.run.run s with
    | (.ok value, t) => after value t
    | (.error fault, t) => stopped fault t

variable {before : σ → Prop} {after : α → σ → Prop} {stopped : Fault → σ → Prop}

theorem Meets.weaken {evaluation : Evaluation σ α} {after' : α → σ → Prop}
    {stopped' : Fault → σ → Prop} (h : evaluation.Meets before after stopped)
    (value : ∀ a s, after a s → after' a s) (fault : ∀ f s, stopped f s → stopped' f s) :
    evaluation.Meets before after' stopped' := by
  intro s hs
  have step := h s hs
  revert step
  cases evaluation.run.run s with
  | mk result t =>
      cases result with
      | ok a => exact value a t
      | error f => exact fault f t

theorem Meets.pure {value : α} (h : ∀ s, before s → after value s) :
    Meets (Pure.pure value : Evaluation σ α) before after stopped :=
  fun s hs => h s hs

theorem Meets.throw {fault : Fault} (h : ∀ s, before s → stopped fault s) :
    Meets (MonadExcept.throw fault : Evaluation σ α) before after stopped :=
  fun s hs => h s hs

theorem Meets.complain {complaint : Complaint}
    (h : ∀ s, before s → stopped (Fault.ofComplaint complaint) s) :
    Meets (Evaluation.complain complaint : Evaluation σ α) before after stopped :=
  fun s hs => h s hs

theorem Meets.get {after : σ → σ → Prop} (h : ∀ s, before s → after s s) :
    Meets (MonadState.get : Evaluation σ σ) before after stopped :=
  fun s hs => h s hs

theorem Meets.change {change : σ → σ} {after : PUnit → σ → Prop}
    (h : ∀ s, before s → after ⟨⟩ (change s)) :
    Meets (modify change : Evaluation σ PUnit) before after stopped :=
  fun s hs => h s hs

theorem Meets.lift {step : StateM σ α}
    (h : ∀ s, before s → after (step.run s).1 (step.run s).2) :
    Meets (liftM step : Evaluation σ α) before after stopped :=
  fun s hs => h s hs

theorem Meets.bind {first : Evaluation σ α} {next : α → Evaluation σ β}
    {after : β → σ → Prop} (between : α → σ → Prop) (h : first.Meets before between stopped)
    (hnext : ∀ a, (next a).Meets (between a) after stopped) :
    Meets (first >>= next) before after stopped := by
  intro s hs
  have step := h s hs
  rw [run_bind]
  revert step
  cases first.run.run s with
  | mk result t =>
      cases result with
      | ok a => exact hnext a t
      | error f => exact id

theorem Meets.tryCatch {evaluation : Evaluation σ α} {handler : Fault → Evaluation σ α}
    (between : Fault → σ → Prop) (h : evaluation.Meets before after between)
    (hhandler : ∀ f, (handler f).Meets (between f) after stopped) :
    Meets (MonadExcept.tryCatch evaluation handler) before after stopped := by
  intro s hs
  have step := h s hs
  rw [run_tryCatch]
  revert step
  cases evaluation.run.run s with
  | mk result t =>
      cases result with
      | ok a => exact id
      | error f => exact hhandler f t

theorem Meets.locate {evaluation : Evaluation σ α} {template : String} {line : Nat}
    (h : evaluation.Meets before after fun fault s => stopped (fault.located ⟨template, line⟩) s) :
    Meets (Evaluation.locate template line evaluation) before after stopped :=
  Meets.tryCatch _ h fun _ => Meets.throw fun _ hs => hs

end ThemeTemplates.Evaluation
