import ThemeTemplates.Proofs.Failure.Calm
import ThemeTemplates.Proofs.Page.Companion

/-!
# The history of a page

A page run in surroundings that note each call before it is answered does what it does without the
notes. A call that stops with a fault is the last one made, and the page stops in the state that the
call left.
-/

namespace ThemeTemplates

variable {σ α : Type}

theorem Fault.cause_located (fault : Fault) (place : Place) :
    (fault.located place).cause = fault.cause := by
  unfold located
  split <;> rfl

/-- A call of a function, and the state that it found. -/
structure Invocation (σ : Type) where
  site : Site
  name : String
  args : List Value
  found : σ

namespace Surroundings

def answer (surroundings : Surroundings σ) (call : Invocation σ) : Except Fault Value × σ :=
  (surroundings.call call.site call.name call.args).run.run call.found

def Answers (surroundings : Surroundings σ) (call : Invocation σ) : Prop :=
  ∃ value s, surroundings.answer call = (.ok value, s)

def beside {ν : Type} (evaluation : Evaluation σ α) : Evaluation (σ × ν) α :=
  ExceptT.mk fun (s, notes) =>
    let (result, t) := evaluation.run.run s
    (result, (t, notes))

def noting (surroundings : Surroundings σ) : Surroundings (σ × List (Invocation σ)) where
  isFunction := surroundings.isFunction
  call := fun site name args => ExceptT.mk fun (s, made) =>
    let call : Invocation σ := ⟨site, name, args, s⟩
    let (result, t) := surroundings.answer call
    (result, (t, made ++ [call]))
  load := fun template => beside (surroundings.load template)

def calls (surroundings : Surroundings σ) (page : Page) (given : Fields Value) (s : σ) :
    List (Invocation σ) :=
  ((Evaluation.printPage surroundings.noting page given).run.run (s, [])).2.2

/-- An invariant that answered calls and searches for pages keep, and what is known of the faults
that do not come from calls. -/
structure Keeps (surroundings : Surroundings σ) (inv : σ → Prop) (known : Fault → Prop) : Prop where
  call : ∀ call value s, inv call.found → surroundings.answer call = (.ok value, s) → inv s
  /-- A call is stopped by a complaint, not by a search for a template or by what it finds. -/
  unsearched : ∀ call fault s, inv call.found → surroundings.answer call = (.error fault, s) →
    ∃ complaint, fault.cause = .complaint complaint
  load : ∀ template s, inv s → inv ((surroundings.load template).run.run s).2
  unloaded : ∀ template s fault t, inv s →
    (surroundings.load template).run.run s = (.error fault, t) → known fault
  complaint : ∀ complaint, known (Fault.ofComplaint complaint)
  located : ∀ fault place, known fault → known (fault.located place)
  wrapping : ∀ fault complaint, known fault → known (.wrapping (.complaint complaint) none fault)
  missing : ∀ fault, known fault → fault.cause = .missingTemplate →
    known (.plain .missingTemplate none)

/-- Calls that found an invariant and were answered. -/
def Answered (surroundings : Surroundings σ) (inv : σ → Prop) (made : List (Invocation σ)) : Prop :=
  ∀ call ∈ made, inv call.found ∧ surroundings.Answers call

/-- How a page is stopped: by a call, the last one made, or between two calls. -/
inductive Stopped (surroundings : Surroundings σ) (inv : σ → Prop) (known : Fault → Prop) :
    Fault → σ → List (Invocation σ) → Prop
  | byCall {earlier : List (Invocation σ)} {call : Invocation σ} {fault fault' : Fault} {s : σ}
    (answered : surroundings.Answered inv earlier) (found : inv call.found)
    (failed : surroundings.answer call = (.error fault, s))
    (carried : fault'.carried? = fault.carried?)
    (cause : ∃ complaint, fault'.cause = .complaint complaint) :
    Stopped surroundings inv known fault' s (earlier ++ [call])
  | between {made : List (Invocation σ)} {fault : Fault} {s : σ}
    (answered : surroundings.Answered inv made)
    (found : inv s) (foreseen : known fault) : Stopped surroundings inv known fault s made

variable {surroundings : Surroundings σ} {inv : σ → Prop} {known : Fault → Prop}

def companion (keeps : surroundings.Keeps inv known) :
    Evaluation.Companion σ (σ × List (Invocation σ)) where
  related := fun s r => s = r.1 ∧ inv s ∧ surroundings.Answered inv r.2
  stopped := fun fault s r => s = r.1 ∧ surroundings.Stopped inv known fault s r.2
  complaint := fun related complaint =>
    ⟨related.1, .between related.2.2 related.2.1 (keeps.complaint complaint)⟩
  located := by
    rintro fault s ⟨_, made⟩ ⟨rfl, stopped⟩ place
    refine ⟨rfl, ?_⟩
    cases stopped with
    | byCall answered found failed carried cause =>
        exact .byCall answered found failed ((fault.carried?_located place).trans carried)
          (fault.cause_located place ▸ cause)
    | between answered found foreseen => exact .between answered found (keeps.located _ _ foreseen)
  wrapping := by
    rintro fault s ⟨_, made⟩ ⟨rfl, stopped⟩ complaint
    refine ⟨rfl, ?_⟩
    cases stopped with
    | byCall answered found failed carried _ =>
        exact .byCall answered found failed carried ⟨_, rfl⟩
    | between answered found foreseen => exact .between answered found (keeps.wrapping _ _ foreseen)
  missing := by
    rintro fault s ⟨_, made⟩ ⟨rfl, stopped⟩ missing
    refine ⟨rfl, ?_⟩
    cases stopped with
    | byCall _ _ _ _ cause =>
        obtain ⟨complaint, cause⟩ := cause
        cases cause.symm.trans missing
    | between answered found foreseen =>
        exact .between answered found (keeps.missing _ foreseen missing)

theorem noting_alike (keeps : surroundings.Keeps inv known) :
    Evaluation.AnswersAlike (companion keeps) surroundings surroundings.noting where
  functions := rfl
  call := by
    rintro site name args s ⟨_, made⟩ ⟨rfl, found, answered⟩
    let call : Invocation σ := ⟨site, name, args, s⟩
    show (companion keeps).Ends _ (surroundings.answer call)
      ((surroundings.answer call).1, ((surroundings.answer call).2, made ++ [call]))
    cases came : surroundings.answer call with
    | mk result t =>
        cases result with
        | ok value =>
            refine .value ⟨rfl, keeps.call call value t found came, fun other hmem => ?_⟩
            rcases List.mem_append.mp hmem with hmem | hmem
            · exact answered other hmem
            · rw [List.mem_singleton.mp hmem]
              exact ⟨found, value, t, came⟩
        | error fault =>
            exact .fault
              ⟨rfl, .byCall answered found came rfl (keeps.unsearched call fault t found came)⟩
  load := by
    rintro template s ⟨_, made⟩ ⟨rfl, found, answered⟩
    show (companion keeps).Ends _ ((surroundings.load template).run.run s)
      (((surroundings.load template).run.run s).1,
        (((surroundings.load template).run.run s).2, made))
    have kept := keeps.load template s found
    cases came : (surroundings.load template).run.run s with
    | mk result t =>
        rw [came] at kept
        cases result with
        | ok page => exact .value ⟨rfl, kept, answered⟩
        | error fault =>
            exact .fault ⟨rfl, .between answered kept (keeps.unloaded _ _ _ _ found came)⟩
  searching := by
    rintro template s ⟨_, made⟩ ⟨rfl, found, answered⟩
    exact ⟨rfl, keeps.load template s found, answered⟩

theorem printPage_calls (keeps : surroundings.Keeps inv known) (page : Page) (given : Fields Value)
    {s : σ} (begun : inv s) :
    match (Evaluation.printPage surroundings page given).run.run s with
    | (.ok _, t) => inv t ∧ surroundings.Answered inv (surroundings.calls page given s)
    | (.error fault, t) =>
        surroundings.Stopped inv known fault t (surroundings.calls page given s) := by
  have ended := Evaluation.printPage_agree (noting_alike keeps) page given s (s, [])
    ⟨rfl, begun, fun _ hmem => nomatch hmem⟩
  unfold calls
  generalize (Evaluation.printPage surroundings page given).run.run s = one,
    (Evaluation.printPage surroundings.noting page given).run.run (s, []) = two at ended
  cases ended with
  | value related => exact related.2
  | fault stopped => exact stopped.2

theorem found_of_mem_calls (keeps : surroundings.Keeps inv known) {page : Page}
    {given : Fields Value} {s : σ} (begun : inv s) {call : Invocation σ}
    (made : call ∈ surroundings.calls page given s) :
    inv call.found := by
  have ended := printPage_calls keeps page given begun
  cases ran : (Evaluation.printPage surroundings page given).run.run s with
  | mk result t =>
      rw [ran] at ended
      cases result with
      | ok output => exact (ended.2 call made).1
      | error fault =>
          generalize surroundings.calls page given s = calls at made ended
          cases ended with
          | between answered _ _ => exact (answered call made).1
          | byCall answered found _ _ _ =>
              rcases List.mem_append.mp made with made | made
              · exact (answered call made).1
              · rw [List.mem_singleton.mp made]
                exact found

/-- A call that stops with a fault stops the page in the state that the call left. -/
theorem printPage_of_call (keeps : surroundings.Keeps inv known) {page : Page}
    {given : Fields Value} {s t : σ} (begun : inv s) {call : Invocation σ}
    (made : call ∈ surroundings.calls page given s) {fault : Fault}
    (failed : surroundings.answer call = (.error fault, t)) :
    ∃ fault', (Evaluation.printPage surroundings page given).run.run s = (.error fault', t) := by
  have unanswered : ¬ surroundings.Answers call := by
    rintro ⟨value, u, answered⟩
    rw [failed] at answered
    cases answered
  have ended := printPage_calls keeps page given begun
  cases ran : (Evaluation.printPage surroundings page given).run.run s with
  | mk result u =>
      rw [ran] at ended
      cases result with
      | ok output => exact absurd (ended.2 call made).2 unanswered
      | error fault' =>
          generalize surroundings.calls page given s = calls at made ended
          cases ended with
          | between answered _ _ => exact absurd (answered call made).2 unanswered
          | byCall answered _ stopped _ _ =>
              rcases List.mem_append.mp made with made | made
              · exact absurd (answered call made).2 unanswered
              · rw [List.mem_singleton.mp made, stopped] at failed
                cases failed
                exact ⟨fault', rfl⟩

end Surroundings

end ThemeTemplates
