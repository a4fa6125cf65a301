import Mathlib.Data.List.TakeWhile
import ThemeTemplates.Argument.Iteration
import ThemeTemplates.Argument.PartialCall
import ThemeTemplates.Argument.Sigil

/-!
# Contained texts

A text is contained if it closes every literal and every bracket it opens, and no other bracket.
Directive arguments are contained, and so is whatever is cut out of them.
-/

namespace ThemeTemplates

namespace Nesting

/-- The state after one more character, none if the character closes a bracket that is not open. -/
def step? (n : Nesting) (c : Char) : Option Nesting :=
  match n.quotation with
  | .inside _ _ => some { n with quotation := n.quotation.next c }
  | .outside =>
    if isQuote c then some { n with quotation := .inside c false }
    else if isOpening c then some { n with depth := n.depth + 1 }
    else if isClosing c then
      match n.depth with
      | 0 => none
      | depth + 1 => some { n with depth }
    else some n

def run? (n : Nesting) : List Char → Option Nesting
  | [] => some n
  | c :: rest => (n.step? c).bind fun n => run? n rest

theorem run?_append (n : Nesting) (first second : List Char) :
    n.run? (first ++ second) = (n.run? first).bind fun m => m.run? second := by
  induction first generalizing n with
  | nil => rfl
  | cons c rest ih =>
      simp only [List.cons_append, run?, Option.bind_assoc]
      congr
      funext m
      exact ih m

theorem next_of_step? {n m : Nesting} {c : Char} (h : n.step? c = some m) : n.next c = m := by
  obtain ⟨q, depth⟩ := n
  cases q with
  | inside mark escaped => exact Option.some.inj h
  | outside =>
      simp only [step?] at h
      simp only [next]
      cases depth <;> grind

theorem after_of_run? {n m : Nesting} {text : List Char} (h : n.run? text = some m) :
    n.after text = m := by
  induction text generalizing n with
  | nil => exact Option.some.inj h
  | cons c rest ih =>
      obtain ⟨k, first, second⟩ := Option.bind_eq_some_iff.mp h
      have tail := ih second
      rw [← next_of_step? first] at tail
      exact tail

theorem quotation_next (n : Nesting) (c : Char) : (n.next c).quotation = n.quotation.next c := by
  obtain ⟨q, depth⟩ := n
  cases q with
  | inside mark escaped => rfl
  | outside =>
      simp only [next, Quotation.next]
      grind

theorem quotation_after (n : Nesting) (text : List Char) :
    (n.after text).quotation = n.quotation.after text := by
  induction text generalizing n with
  | nil => rfl
  | cons c rest ih =>
      show ((n.next c).after rest).quotation = _
      rw [ih, quotation_next]
      rfl

def under (n : Nesting) (depth : Nat) : Nesting :=
  { n with depth := n.depth + depth }

theorem step?_under {n m : Nesting} {c : Char} (h : n.step? c = some m) (depth : Nat) :
    (n.under depth).step? c = some (m.under depth) := by
  obtain ⟨q, own⟩ := n
  cases q with
  | inside mark escaped =>
      cases h
      rfl
  | outside =>
      simp only [step?] at h
      simp only [step?, under]
      cases own <;> grind [under]

theorem run?_under {n m : Nesting} {text : List Char} (h : n.run? text = some m) (depth : Nat) :
    (n.under depth).run? text = some (m.under depth) := by
  induction text generalizing n with
  | nil =>
      cases h
      rfl
  | cons c rest ih =>
      obtain ⟨k, first, second⟩ := Option.bind_eq_some_iff.mp h
      simp only [run?, step?_under first depth, Option.bind_some]
      exact ih second

end Nesting

/-- A text that closes what it opens and nothing else. -/
def Contained (text : List Char) : Prop :=
  Nesting.run? {} text = some {}

def isNeutral (c : Char) : Bool :=
  !(isQuote c || isOpening c || isClosing c)

theorem isNeutral_iff {c : Char} :
    isNeutral c = true ↔ isQuote c = false ∧ isOpening c = false ∧ isClosing c = false := by
  simp [isNeutral, and_assoc]

theorem not_quote_of_closing {c : Char} (h : isClosing c = true) :
    isQuote c = false ∧ isOpening c = false := by
  simp only [isClosing, Bool.or_eq_true, beq_iff_eq] at h
  rcases h with (rfl | rfl) | rfl <;> decide

theorem not_quote_of_blank {c : Char} (h : isBlank c = true) :
    isQuote c = false ∧ isOpening c = false ∧ isClosing c = false := by
  refine ⟨?_, ?_, ?_⟩
  · rw [← Bool.not_eq_true]
    intro quote
    simp only [isQuote, Bool.or_eq_true, beq_iff_eq] at quote
    rcases quote with rfl | rfl <;> simp [isBlank, blankRanges] at h
  · rw [← Bool.not_eq_true]
    intro opening
    simp only [isOpening, Bool.or_eq_true, beq_iff_eq] at opening
    rcases opening with (rfl | rfl) | rfl <;> simp [isBlank, blankRanges] at h
  · rw [← Bool.not_eq_true]
    intro closing
    simp only [isClosing, Bool.or_eq_true, beq_iff_eq] at closing
    rcases closing with (rfl | rfl) | rfl <;> simp [isBlank, blankRanges] at h

namespace Contained

theorem nil : Contained [] :=
  rfl

theorem append {first second : List Char} (hfirst : Contained first) (hsecond : Contained second) :
    Contained (first ++ second) := by
  unfold Contained
  rw [Nesting.run?_append, hfirst]
  exact hsecond

theorem run?_at {text : List Char} (h : Contained text) (depth : Nat) :
    Nesting.run? { depth } text = some { depth } := by
  have := Nesting.run?_under h depth
  simpa [Nesting.under] using this

theorem of_append {first second : List Char} (h : Contained (first ++ second))
    (top : Nesting.after {} first = {}) : Contained first ∧ Contained second := by
  unfold Contained at h
  rw [Nesting.run?_append] at h
  obtain ⟨m, left, right⟩ := Option.bind_eq_some_iff.mp h
  have same : m = {} := (Nesting.after_of_run? left).symm.trans top
  subst same
  exact ⟨left, right⟩

end Contained

/-! ### Cutting -/

theorem splitAtClose_spec {n : Nesting} {text inner after : List Char} {close : Char}
    (h : splitAtClose n text = some (inner, close, after)) {depth : Nat}
    (hdepth : n.depth = depth + 1) :
    text = inner ++ close :: after ∧ isClosing close = true ∧
      Nesting.run? { n with depth } inner = some {} := by
  induction text generalizing n inner depth with
  | nil => cases h
  | cons c rest ih =>
      simp only [splitAtClose] at h
      split at h
      · next found =>
          simp only [Option.some.injEq, Prod.mk.injEq] at h
          obtain ⟨rfl, rfl, rfl⟩ := h
          simp only [Bool.and_eq_true, beq_iff_eq] at found
          obtain ⟨⟨outside, closing⟩, top⟩ := found
          have zero : depth = 0 := by omega
          subst zero
          refine ⟨rfl, closing, ?_⟩
          rw [outside]
          rfl
      · next other =>
          simp only [Option.map_eq_some_iff, Prod.exists, Prod.mk.injEq] at h
          obtain ⟨inner', close', after', found, rfl, rfl, rfl⟩ := h
          obtain ⟨q, d⟩ := n
          simp only at hdepth
          subst hdepth
          have step : ∃ d, (Nesting.next ⟨q, depth + 1⟩ c).depth = d + 1 ∧
              Nesting.step? ⟨q, depth⟩ c = some ⟨(Nesting.next ⟨q, depth + 1⟩ c).quotation, d⟩ := by
            cases q with
            | inside mark escaped => exact ⟨depth, rfl, rfl⟩
            | outside =>
                simp only [Nesting.next, Nesting.step?]
                cases depth <;> grind
          obtain ⟨d, deeper, stepped⟩ := step
          obtain ⟨whole, closing, ran⟩ := ih found deeper
          refine ⟨by rw [whole, List.cons_append], closing, ?_⟩
          simp only [Nesting.run?, stepped, Option.bind_some]
          exact ran

/-- A text that closes what it opens, and a bracket behind it that closes one more. -/
theorem splitAtClose_of_run? {n : Nesting} {inner : List Char} (ran : n.run? inner = some {})
    {close : Char} (closing : isClosing close = true) (after : List Char) :
    splitAtClose (n.under 1) (inner ++ close :: after) = some (inner, close, after) := by
  induction inner generalizing n with
  | nil =>
      cases ran
      simp [splitAtClose, Nesting.under, closing]
  | cons c inner ih =>
      obtain ⟨m, stepped, ran⟩ := Option.bind_eq_some_iff.mp ran
      have goesOn : ((n.under 1).quotation == .outside && isClosing c && (n.under 1).depth == 1) =
          false := by
        rw [← Bool.not_eq_true]
        intro ends
        simp only [Nesting.under, Bool.and_eq_true, beq_iff_eq] at ends
        obtain ⟨⟨outside, closes⟩, top⟩ := ends
        obtain ⟨quote, opening⟩ := not_quote_of_closing closes
        have zero : n.depth = 0 := by omega
        simp [Nesting.step?, outside, quote, opening, closes, zero] at stepped
      have next := Nesting.next_of_step? (Nesting.step?_under stepped 1)
      rw [List.cons_append, splitAtClose, goesOn, next, ih ran]
      rfl

/-- A parenthesis, a text and the bracket that closes the parenthesis, by a count of brackets of all
kinds. -/
def Counted (list inner : List Char) : Prop :=
  ∃ close, list = '(' :: (inner ++ [close]) ∧ isClosing close = true ∧ Contained inner

theorem Counted.unique {list inner rest list' inner' rest' : List Char} (h : Counted list inner)
    (h' : Counted list' inner') (same : list ++ rest = list' ++ rest') : list = list' ∧
    inner = inner' := by
  obtain ⟨close, rfl, closing, contained⟩ := h
  obtain ⟨close', rfl, closing', contained'⟩ := h'
  have found := splitAtClose_of_run? contained closing rest
  have found' := splitAtClose_of_run? contained' closing' rest'
  simp only [List.cons_append, List.append_assoc, List.nil_append, List.cons.injEq,
    true_and] at same
  rw [same, found', Option.some.injEq, Prod.mk.injEq, Prod.mk.injEq] at found
  obtain ⟨rfl, rfl, rfl⟩ := found
  exact ⟨rfl, rfl⟩

theorem unwrapOnce_eq_some_iff {text inner : List Char} :
    unwrapOnce text = some inner ↔ Counted text inner := by
  constructor
  · intro h
    simp only [unwrapOnce] at h
    split at h
    · split at h
      · next found =>
          cases h
          obtain ⟨rfl, closing, contained⟩ :=
            splitAtClose_spec found (show Nesting.depth { depth := 1 } = 0 + 1 from rfl)
          exact ⟨_, rfl, closing, contained⟩
      · cases h
    · cases h
  · rintro ⟨close, rfl, closing, contained⟩
    have found : splitAtClose { depth := 1 } (inner ++ [close]) = some (inner, close, []) :=
      splitAtClose_of_run? contained closing []
    simp only [unwrapOnce, found]

theorem dropWhile_eq_stripEnds_append (p : Char → Bool) (text : List Char) :
    ∃ after, text.dropWhile p = stripEnds p text ++ after ∧ ∀ c ∈ after, p c = true := by
  refine ⟨((text.dropWhile p).reverse.takeWhile p).reverse, ?_, fun c hc => ?_⟩
  · rw [stripEnds, ← List.reverse_append, List.takeWhile_append_dropWhile, List.reverse_reverse]
  · exact List.mem_takeWhile_imp (List.mem_reverse.mp hc)

theorem stripEnds_spec (p : Char → Bool) (text : List Char) :
    ∃ before after, text = before ++ stripEnds p text ++ after ∧
      (∀ c ∈ before, p c = true) ∧ (∀ c ∈ after, p c = true) := by
  obtain ⟨after, eq, hafter⟩ := dropWhile_eq_stripEnds_append p text
  refine ⟨text.takeWhile p, after, ?_, fun c hc => List.mem_takeWhile_imp hc, hafter⟩
  rw [List.append_assoc, ← eq, List.takeWhile_append_dropWhile]

theorem stripEnds_eq_nil_iff {p : Char → Bool} {text : List Char} :
    stripEnds p text = [] ↔ ∀ c ∈ text, p c = true := by
  constructor
  · intro empty
    obtain ⟨before, after, whole, front, back⟩ := stripEnds_spec p text
    rw [empty, List.append_nil] at whole
    rw [whole]
    exact List.forall_mem_append.mpr ⟨front, back⟩
  · intro all
    rw [stripEnds, List.dropWhile_eq_nil_iff.mpr all]
    rfl

theorem trim_eq_nil_iff {text : List Char} : trim text = [] ↔ ∀ c ∈ text, isBlank c = true :=
  stripEnds_eq_nil_iff

theorem trim_spec (text : List Char) : ∃ before after, text = before ++ trim text ++ after ∧
    (∀ c ∈ before, isBlank c = true) ∧ (∀ c ∈ after, isBlank c = true) :=
  stripEnds_spec isBlank text

theorem run?_blanks {text : List Char} (h : ∀ c ∈ text, isBlank c = true) (depth : Nat) :
    Nesting.run? { depth } text = some { depth } := by
  induction text with
  | nil => rfl
  | cons c rest ih =>
      obtain ⟨quote, opening, closing⟩ := not_quote_of_blank (h c List.mem_cons_self)
      have step : Nesting.step? { depth } c = some { depth } := by
        simp [Nesting.step?, quote, opening, closing]
      simp only [Nesting.run?, step, Option.bind_some]
      exact ih fun d hd => h d (List.mem_cons_of_mem _ hd)

theorem inside_after_blanks {text : List Char} (h : ∀ c ∈ text, isBlank c = true) {mark : Char}
    (hmark : isQuote mark = true) (escaped : Bool) (depth : Nat) :
    (Nesting.after ⟨.inside mark escaped, depth⟩ text).quotation ≠ .outside := by
  induction text generalizing escaped with
  | nil => simp [Nesting.after]
  | cons c rest ih =>
      have blank := h c List.mem_cons_self
      have other : c ≠ mark := by
        rintro rfl
        rw [(not_quote_of_blank blank).1] at hmark
        cases hmark
      have stays : ∃ escaped', Nesting.next ⟨.inside mark escaped, depth⟩ c =
          ⟨.inside mark escaped', depth⟩ := by
        cases escaped with
        | true => exact ⟨false, rfl⟩
        | false =>
            simp only [Nesting.next, Quotation.next]
            split
            · exact ⟨true, rfl⟩
            · rw [if_neg (by simpa using other)]
              exact ⟨false, rfl⟩
      obtain ⟨escaped', stays⟩ := stays
      show (Nesting.after (Nesting.next _ c) rest).quotation ≠ _
      rw [stays]
      exact ih (fun d hd => h d (List.mem_cons_of_mem _ hd)) escaped'

theorem quote_of_inside (n : Nesting) (text : List Char) {mark : Char} {escaped : Bool}
    (hn : ∀ mark escaped, n.quotation = .inside mark escaped → isQuote mark = true)
    (h : (n.after text).quotation = .inside mark escaped) : isQuote mark = true := by
  induction text generalizing n with
  | nil => exact hn mark escaped h
  | cons c rest ih =>
      refine ih (n.next c) (fun other escaped' inside => ?_) h
      obtain ⟨q, depth⟩ := n
      cases q with
      | inside m e =>
          have known := hn m e rfl
          cases e with
          | true =>
              cases inside
              exact known
          | false =>
              simp only [Nesting.next, Quotation.next] at inside
              split at inside
              · cases inside
                exact known
              · split at inside
                · cases inside
                · cases inside
                  exact known
      | outside =>
          simp only [Nesting.next] at inside
          split at inside
          · next quote =>
              cases inside
              exact quote
          · split at inside
            · cases inside
            · split at inside <;> cases inside

theorem Contained.trim {text : List Char} (h : Contained text) : Contained (trim text) := by
  obtain ⟨before, after, whole, blankBefore, blankAfter⟩ := trim_spec text
  have top : Nesting.after {} before = {} := Nesting.after_of_run? (run?_blanks blankBefore 0)
  rw [whole, List.append_assoc] at h
  have inner := (h.of_append top).2
  unfold Contained at inner ⊢
  rw [Nesting.run?_append] at inner
  obtain ⟨m, left, right⟩ := Option.bind_eq_some_iff.mp inner
  obtain ⟨q, depth⟩ := m
  cases q with
  | outside =>
      rw [run?_blanks blankAfter depth] at right
      rw [left, right]
  | inside mark escaped =>
      have quote : isQuote mark = true := by
        have within : (Nesting.after {} (ThemeTemplates.trim text)).quotation =
            .inside mark escaped := by
          rw [Nesting.after_of_run? left]
        exact quote_of_inside {} _ (fun _ _ inside => nomatch inside) within
      have stuck := inside_after_blanks blankAfter quote escaped depth
      rw [Nesting.after_of_run? right] at stuck
      exact absurd rfl stuck

end ThemeTemplates
