import ThemeTemplates.Proofs.Failure.Calm
import ThemeTemplates.Proofs.Page.Contract

/-!
# Evaluations in the mirror

An evaluation that is compared with an image of it, which runs over states of another kind. As long
as the image is not lost, both come to related values or stop with the same fault, and their states
stay related. What is lost stays lost, whatever else is done. The rules follow the combinators that
evaluations are written with.
-/

namespace ThemeTemplates.Evaluation

variable {σ τ α β : Type}

/-- An evaluation that keeps an invariant also when it stops, and does not stop with misuse of the
loop stack. -/
def Preserves (strict : Prop) (inv : σ → Prop) (evaluation : Evaluation σ α)
    (after : α → Prop) : Prop :=
  evaluation.Meets inv (fun value s => after value ∧ inv s) fun fault s => fault.Calm strict ∧ inv s

section

variable {strict : Prop} {inv : σ → Prop} {after : α → Prop}

theorem Preserves.pure {value : α} (h : after value) :
    Preserves strict inv (Pure.pure value : Evaluation σ α) after :=
  Meets.pure fun _ hs => ⟨h, hs⟩

theorem Preserves.complain (complaint : Complaint) :
    Preserves strict inv (Evaluation.complain complaint : Evaluation σ α) after :=
  Meets.complain fun _ hs => ⟨Fault.calm_ofComplaint complaint, hs⟩

theorem Preserves.bind {first : Evaluation σ α} {next : α → Evaluation σ β} {after' : β → Prop}
    (h : Preserves strict inv first after)
    (hnext : ∀ value, after value → Preserves strict inv (next value) after') :
    Preserves strict inv (first >>= next) after' := by
  refine Meets.bind _ h fun value => ?_
  rintro s ⟨hvalue, hs⟩
  exact hnext value hvalue s hs

theorem Preserves.complain_bind (complaint : Complaint) (next : α → Evaluation σ β)
    {after : β → Prop} :
    Preserves strict inv (Evaluation.complain complaint >>= next) after :=
  fun _ hs => ⟨Fault.calm_ofComplaint complaint, hs⟩

theorem Preserves.locate {evaluation : Evaluation σ α} {template : String} {line : Nat}
    (h : Preserves strict inv evaluation after) :
    Preserves strict inv (Evaluation.locate template line evaluation) after :=
  Meets.locate (Meets.weaken h (fun _ _ hs => hs) fun _ _ hs => ⟨hs.1.located _, hs.2⟩)

end

structure Mirror (σ τ : Type) where
  /-- Whether the faults of the image must not be misuse of the loop stack. -/
  strict : Prop
  /-- The states of the image from which on nothing is asked of it. -/
  lost : τ → Prop
  /-- How the states are related where both stopped with a fault. -/
  stopped : σ → τ → Prop

variable {m : Mirror σ τ} {before : σ → τ → Prop} {keeps : β → Prop} {after : α → β → σ → τ → Prop}

/-- How an evaluation and its image may end: with related values or the same fault and related
states, or with an image that is lost. -/
inductive Mirror.Ends (m : Mirror σ τ) (keeps : β → Prop) (after : α → β → σ → τ → Prop) :
    Except Fault α × σ → Except Fault β × τ → Prop
  | value {a : α} {b : β} {s : σ} {r : τ} (kept : keeps b) (related : after a b s r) :
    Ends m keeps after (.ok a, s) (.ok b, r)
  | fault {fault : Fault} {s : σ} {r : τ} (related : m.stopped s r) :
    Ends m keeps after (.error fault, s) (.error fault, r)
  | lostValue {first : Except Fault α × σ} {b : β} {r : τ} (kept : keeps b) (lost : m.lost r) :
    Ends m keeps after first (.ok b, r)
  | lostFault {first : Except Fault α × σ} {fault : Fault} {r : τ} (lost : m.lost r) :
    Ends m keeps after first (.error fault, r)

/-- An evaluation and its image, from states that are related as `before` says. The values of the
image satisfy `keeps` also when it is lost. -/
structure Mirrors (m : Mirror σ τ) (before : σ → τ → Prop) (source : Evaluation σ α)
    (image : Evaluation τ β) (keeps : β → Prop) (after : α → β → σ → τ → Prop) : Prop where
  loses : Preserves m.strict m.lost image keeps
  follows : ∀ s r, before s r → m.Ends keeps after (source.run.run s) (image.run.run r)

/-- The value of the image determines that of the evaluation. -/
def Determines (f : β → α) (related : β → σ → τ → Prop) (a : α) (b : β) (s : σ) (r : τ) : Prop :=
  a = f b ∧ related b s r

def Same (related : α → σ → τ → Prop) (a b : α) (s : σ) (r : τ) : Prop :=
  a = b ∧ related b s r

theorem Preserves.ends {image : Evaluation τ β} (h : Preserves m.strict m.lost image keeps) {r : τ}
    (lost : m.lost r) (first : Except Fault α × σ) :
      m.Ends keeps after first (image.run.run r) := by
  have ended := h r lost
  revert ended
  cases image.run.run r with
  | mk result t =>
      cases result with
      | ok b => exact fun ended => .lostValue ended.1 ended.2
      | error fault => exact fun ended => .lostFault ended.2

namespace Mirrors

variable {source : Evaluation σ α} {image : Evaluation τ β}

protected theorem pure {a : α} {b : β} (kept : keeps b)
    (related : ∀ s r, before s r → after a b s r) :
    Mirrors m before (Pure.pure a) (Pure.pure b) keeps after where
  loses := Preserves.pure kept
  follows := fun s r h => .value kept (related s r h)

protected theorem complain (complaint : Complaint)
    (related : ∀ s r, before s r → m.stopped s r) :
    Mirrors m before (Evaluation.complain complaint) (Evaluation.complain complaint)
      keeps after where
  loses := Preserves.complain complaint
  follows := fun s r h => .fault (related s r h)

protected theorem lift {step : StateM σ α} {step' : StateM τ β}
    (loses : ∀ r, m.lost r → m.lost (step'.run r).2)
    (follows : ∀ s r, before s r →
      after (step.run s).1 (step'.run r).1 (step.run s).2 (step'.run r).2 ∨
      m.lost (step'.run r).2) :
    Mirrors m before (liftM step) (liftM step') (fun _ => True) after where
  loses := fun r hr => ⟨trivial, loses r hr⟩
  follows := fun s r h =>
    (follows s r h).elim (fun related => .value trivial related) fun lost => .lostValue trivial lost

theorem follows_bind {γ δ : Type} {next : α → Evaluation σ γ} {next' : β → Evaluation τ δ}
    {keeps' : δ → Prop} {after' : γ → δ → σ → τ → Prop}
    (h : Mirrors m before source image keeps after)
    (hloses : ∀ b, keeps b → Preserves m.strict m.lost (next' b) keeps')
    (hnext : ∀ a b s r, keeps b → after a b s r →
      m.Ends keeps' after' ((next a).run.run s) ((next' b).run.run r)) :
    Mirrors m before (source >>= next) (image >>= next') keeps' after' where
  loses := Preserves.bind h.loses hloses
  follows := by
    intro s r hs
    rw [run_bind, run_bind]
    have ended := h.follows s r hs
    generalize source.run.run s = first, image.run.run r = second at ended
    cases ended with
    | value kept related => exact hnext _ _ _ _ kept related
    | fault related => exact .fault related
    | lostValue kept lost => exact (hloses _ kept).ends lost _
    | lostFault lost => exact .lostFault lost

section

variable {γ δ : Type} {next' : β → Evaluation τ δ} {keeps' : δ → Prop}
    {after' : γ → δ → σ → τ → Prop}

protected theorem bindDetermined {f : β → α} {next : α → Evaluation σ γ}
    {between : β → σ → τ → Prop} (h : Mirrors m before source image keeps (Determines f between))
    (hnext : ∀ b, keeps b → Mirrors m (between b) (next (f b)) (next' b) keeps' after') :
    Mirrors m before (source >>= next) (image >>= next') keeps' after' := by
  refine h.follows_bind (fun b kept => (hnext b kept).loses) ?_
  rintro a b s r kept ⟨rfl, related⟩
  exact (hnext b kept).follows s r related

protected theorem bindSame {source : Evaluation σ β} {next : β → Evaluation σ γ}
    {between : β → σ → τ → Prop} (h : Mirrors m before source image keeps (Same between))
    (hnext : ∀ b, keeps b → Mirrors m (between b) (next b) (next' b) keeps' after') :
    Mirrors m before (source >>= next) (image >>= next') keeps' after' :=
  Mirrors.bindDetermined (f := id) h hnext

theorem observe {next : τ → Evaluation τ β}
    (h : ∀ r₀, Mirrors m (fun s r => before s r ∧ r = r₀) source (next r₀) keeps after) :
    Mirrors m before source (get >>= next) keeps after where
  loses := fun r lost => (h r).loses r lost
  follows := fun s r related => (h r).follows s r ⟨related, rfl⟩

theorem choose {ι : Type} [Inhabited ι] {before : ι → σ → τ → Prop}
    (h : ∀ i, Mirrors m (before i) source image keeps after) :
    Mirrors m (fun s r => ∃ i, before i s r) source image keeps after where
  loses := (h default).loses
  follows := by
    rintro s r ⟨i, related⟩
    exact (h i).follows s r related

end

protected theorem locate (h : Mirrors m before source image keeps after) (template : String)
    (line : Nat) :
    Mirrors m before (Evaluation.locate template line source)
      (Evaluation.locate template line image)
      keeps after where
  loses := h.loses.locate
  follows := by
    intro s r hs
    unfold Evaluation.locate
    rw [run_tryCatch, run_tryCatch]
    have ended := h.follows s r hs
    generalize source.run.run s = first, image.run.run r = second at ended
    cases ended with
    | value kept related => exact .value kept related
    | fault related => exact .fault related
    | lostValue kept lost => exact .lostValue kept lost
    | lostFault lost => exact .lostFault lost

theorem starting (h : Mirrors m before source image keeps after) {before' : σ → τ → Prop}
    (first : ∀ s r, before' s r → before s r) : Mirrors m before' source image keeps after where
  loses := h.loses
  follows := fun s r hs => h.follows s r (first s r hs)

theorem weaken (h : Mirrors m before source image keeps after) {before' : σ → τ → Prop}
    {after' : α → β → σ → τ → Prop} (first : ∀ s r, before' s r → before s r)
    (last : ∀ a b s r, keeps b → after a b s r → after' a b s r) :
    Mirrors m before' source image keeps after' where
  loses := h.loses
  follows := by
    intro s r hs
    have ended := h.follows s r (first s r hs)
    generalize source.run.run s = first, image.run.run r = second at ended
    cases ended with
    | value kept related => exact .value kept (last _ _ _ _ kept related)
    | fault related => exact .fault related
    | lostValue kept lost => exact .lostValue kept lost
    | lostFault lost => exact .lostFault lost

theorem stopping (h : Mirrors m before source image keeps after) {m' : Mirror σ τ}
    (strict : m'.strict = m.strict) (lost : m'.lost = m.lost)
    (weaker : ∀ s r, m.stopped s r → m'.stopped s r) :
    Mirrors m' before source image keeps after where
  loses := by
    rw [strict, lost]
    exact h.loses
  follows := by
    intro s r hs
    have ended := h.follows s r hs
    generalize source.run.run s = first, image.run.run r = second at ended
    cases ended with
    | value kept related => exact .value kept related
    | fault related => exact .fault (weaker _ _ related)
    | lostValue kept isLost => exact .lostValue kept (lost ▸ isLost)
    | lostFault isLost => exact .lostFault (lost ▸ isLost)

end Mirrors

end ThemeTemplates.Evaluation
