import ThemeTemplates.Proofs.Text.Parts

/-!
# Texts that leave nothing open

What a reader passes over between literals and brackets, as a grammar: characters that open nothing,
whole literals, and brackets around texts of the same kind. Brackets of all kinds count alike, and
outside all of them a closing one is passed over. The grammar is what a reader with a count of open
brackets finds.
-/

namespace ThemeTemplates

/-- The inside of a literal that ends with `mark`. -/
inductive Quoted (mark : Char) : List Char → Prop
  | nil : Quoted mark []
  | escape (c : Char) {rest : List Char} (h : Quoted mark rest) : Quoted mark ('\\' :: c :: rest)
  | char {c : Char} {rest : List Char} (noMark : c ≠ mark) (noEscape : c ≠ '\\')
    (h : Quoted mark rest) : Quoted mark (c :: rest)

/-- A text that leaves no literal and no bracket open; `stray` allows closing brackets that close
nothing. -/
inductive Settled : (stray : Bool) → List Char → Prop
  | nil {stray : Bool} : Settled stray []
  | char {stray : Bool} {c : Char} {rest : List Char} (noQuote : isQuote c = false)
    (noOpening : isOpening c = false) (closes : isClosing c = true → stray = true)
    (h : Settled stray rest) : Settled stray (c :: rest)
  | literal {stray : Bool} {mark : Char} {inside rest : List Char} (quote : isQuote mark = true)
    (quoted : Quoted mark inside) (h : Settled stray rest) :
    Settled stray (mark :: (inside ++ mark :: rest))
  | brackets {stray : Bool} {opening closing : Char} {inside rest : List Char}
    (opens : isOpening opening = true) (closes : isClosing closing = true)
    (hinside : Settled false inside) (hrest : Settled stray rest) :
    Settled stray (opening :: (inside ++ closing :: rest))

namespace Nesting

theorem after_append (n : Nesting) (first second : List Char) :
    n.after (first ++ second) = (n.after first).after second :=
  List.foldl_append

theorem after_cons (n : Nesting) (c : Char) (rest : List Char) :
    n.after (c :: rest) = (n.next c).after rest := rfl

theorem step?_quote {c : Char} (quote : isQuote c = true) (depth : Nat) :
    step? { depth } c = some ⟨.inside c false, depth⟩ := by
  simp [step?, quote]

theorem step?_opening {c : Char} (opens : isOpening c = true) (depth : Nat) :
    step? { depth } c = some { depth := depth + 1 } := by
  have noQuote : isQuote c = false := by
    simp only [isOpening, Bool.or_eq_true, beq_iff_eq] at opens
    rcases opens with (rfl | rfl) | rfl <;> rfl
  simp [step?, noQuote, opens]

theorem step?_mark {mark : Char} (quote : isQuote mark = true) (depth : Nat) :
    step? ⟨.inside mark false, depth⟩ mark = some { depth } := by
  have noEscape : mark ≠ '\\' := by
    rintro rfl
    cases quote
  simp [step?, Quotation.next, noEscape]

theorem step?_closing {c : Char} (closing : isClosing c = true) (depth : Nat) :
    step? { depth := depth + 1 } c = some { depth } := by
  obtain ⟨quote, opening⟩ := not_quote_of_closing closing
  simp [step?, quote, opening, closing]

theorem next_of_noOpening {c : Char} (noQuote : isQuote c = false)
    (noOpening : isOpening c = false) :
    next {} c = {} := by
  simp [next, noQuote, noOpening]

end Nesting

theorem Quoted.run? {mark : Char} {inside : List Char} (h : Quoted mark inside) (depth : Nat) :
    Nesting.run? ⟨.inside mark false, depth⟩ inside = some ⟨.inside mark false, depth⟩ := by
  induction h with
  | nil => rfl
  | escape c _ ih =>
      simpa [Nesting.run?, Nesting.step?, Quotation.next] using ih
  | char noMark noEscape _ ih =>
      simpa [Nesting.run?, Nesting.step?, Quotation.next, noMark, noEscape] using ih

namespace Settled

theorem contained {text : List Char} (h : Settled false text) : Contained text := by
  generalize same : false = stray at h
  induction h with
  | nil => rfl
  | char noQuote noOpening closes _ ih =>
      have noClosing := mt closes (by simp [← same])
      simpa [Contained, Nesting.run?, Nesting.step?, noQuote, noOpening, noClosing] using ih same
  | literal quote quoted _ ih =>
      unfold Contained
      rw [Nesting.run?, Nesting.step?_quote quote, Option.bind_some, Nesting.run?_append,
        quoted.run?, Option.bind_some, Nesting.run?, Nesting.step?_mark quote, Option.bind_some]
      exact ih same
  | brackets opens closes _ _ ihInside ihRest =>
      unfold Contained
      rw [Nesting.run?, Nesting.step?_opening opens, Option.bind_some, Nesting.run?_append,
        (ihInside rfl).run?_at, Option.bind_some, Nesting.run?, Nesting.step?_closing closes,
        Option.bind_some]
      exact ihRest same

theorem after {stray : Bool} {text : List Char} (h : Settled stray text) :
    Nesting.after {} text = {} := by
  induction h with
  | nil => rfl
  | char noQuote noOpening _ _ ih =>
      rw [Nesting.after_cons, Nesting.next_of_noOpening noQuote noOpening, ih]
  | literal quote quoted _ ih =>
      rw [Nesting.after_cons, Nesting.next_of_step? (Nesting.step?_quote quote 0),
        Nesting.after_append, Nesting.after_of_run? (quoted.run? 0), Nesting.after_cons,
        Nesting.next_of_step? (Nesting.step?_mark quote 0), ih]
  | brackets opens closes inside _ _ ih =>
      rw [Nesting.after_cons, Nesting.next_of_step? (Nesting.step?_opening opens 0),
        Nesting.after_append, Nesting.after_of_run? (inside.contained.run?_at 1),
        Nesting.after_cons, Nesting.next_of_step? (Nesting.step?_closing closes 0), ih]

end Settled

/-! ### Reading the grammar off a count -/

theorem quoted_of_after {mark : Char} {escaped : Bool} {text : List Char}
    (ended : Quotation.after (.inside mark escaped) text = .outside) :
    ∃ inside rest, text = inside ++ mark :: rest ∧
      Quoted mark (if escaped then '\\' :: inside else inside) := by
  induction text generalizing escaped with
  | nil => cases ended
  | cons c text ih =>
      cases escaped with
      | true =>
          have later : Quotation.after (.inside mark false) text = .outside := ended
          obtain ⟨inside, rest, rfl, quoted⟩ := ih later
          exact ⟨c :: inside, rest, rfl, .escape c quoted⟩
      | false =>
          by_cases escape : c = '\\'
          · subst escape
            have later : Quotation.after (.inside mark true) text = .outside := ended
            obtain ⟨inside, rest, rfl, quoted⟩ := ih later
            exact ⟨'\\' :: inside, rest, rfl, quoted⟩
          · by_cases closes : c = mark
            · exact ⟨[], text, by rw [closes]; rfl, .nil⟩
            · have goesOn : (Quotation.inside mark false).next c = .inside mark false := by
                simp [Quotation.next, escape, closes]
              have later : Quotation.after ((Quotation.inside mark false).next c) text = .outside :=
                ended
              rw [goesOn] at later
              obtain ⟨inside, rest, rfl, quoted⟩ := ih later
              exact ⟨c :: inside, rest, rfl, .char closes escape quoted⟩

theorem splitAtClose_isSome {n : Nesting} {text : List Char} (opened : 0 < n.depth)
    (closed : (n.after text).depth = 0) : ∃ cut, splitAtClose n text = some cut := by
  induction text generalizing n with
  | nil => exact absurd closed (Nat.ne_of_gt opened)
  | cons c text ih =>
      unfold splitAtClose
      split
      · exact ⟨_, rfl⟩
      · next other =>
          have deeper : 0 < (n.next c).depth := by
            obtain ⟨q, depth⟩ := n
            cases q with
            | inside mark escaped => exact opened
            | outside =>
                simp only [Bool.and_eq_true, beq_iff_eq, true_and] at other
                simp only [Nesting.next]
                split
                · exact opened
                · split
                  · exact Nat.succ_pos _
                  · split
                    · next closing =>
                        have several : depth ≠ 1 := fun one => other ⟨closing, one⟩
                        have some : 0 < depth := opened
                        show 0 < depth - 1
                        omega
                    · exact opened
          obtain ⟨cut, found⟩ := ih deeper closed
          rw [found]
          exact ⟨_, rfl⟩

/-- What a reader comes out of as it went in leaves nothing open; without stray closing brackets the
text is contained. -/
theorem settled_of_after {stray : Bool} {text : List Char} (ended : Nesting.after {} text = {})
    (only : stray = false → Contained text) : Settled stray text := by
  induction size : text.length using Nat.strong_induction_on generalizing text stray with
  | _ bound ih =>
    -- what stands behind a part that leaves nothing open does so, too
    have behind : ∀ first second, text = first ++ second → Nesting.after {} first = {} →
        0 < first.length → Settled stray second := by
      rintro first second rfl settled nonempty
      rw [Nesting.after_append, settled] at ended
      rw [List.length_append] at size
      exact ih second.length
        (by omega) ended (fun strict => ((only strict).of_append settled).2) rfl
    cases text with
    | nil => exact .nil
    | cons c rest =>
      by_cases quote : isQuote c = true
      · have opened := Nesting.next_of_step? (Nesting.step?_quote quote 0)
        have closed : Quotation.after (.inside c false) rest = .outside := by
          rw [Nesting.after_cons, opened] at ended
          have last := congrArg Nesting.quotation ended
          rwa [Nesting.quotation_after] at last
        obtain ⟨inside, later, rfl, quoted⟩ := quoted_of_after closed
        refine .literal quote quoted (behind (c :: (inside ++ [c])) later (by simp) ?_ (by simp))
        exact (Settled.literal quote quoted .nil : Settled true _).after
      · by_cases opens : isOpening c = true
        · have opened := Nesting.next_of_step? (Nesting.step?_opening opens 0)
          have closed : (Nesting.after { depth := 1 } rest).depth = 0 := by
            rw [Nesting.after_cons, opened] at ended
            exact congrArg Nesting.depth ended
          obtain ⟨⟨inside, close, later⟩, found⟩ := splitAtClose_isSome Nat.one_pos closed
          obtain ⟨rfl, closes, ran⟩ := splitAtClose_spec found rfl
          have settled : Settled false inside := by
            simp only [List.length_cons, List.length_append] at size
            exact ih inside.length (by omega) (Nesting.after_of_run? ran) (fun _ => ran) rfl
          refine .brackets opens closes settled
            (behind (c :: (inside ++ [close])) later (by simp) ?_ (by simp))
          exact (Settled.brackets opens closes settled .nil : Settled true _).after
        · rw [Bool.not_eq_true] at quote opens
          have passed : Nesting.after {} [c] = {} := Nesting.next_of_noOpening quote opens
          refine .char quote opens (fun closing => ?_) (behind [c] rest rfl passed Nat.one_pos)
          cases stray with
          | true => rfl
          | false =>
              have contained := only rfl
              simp [Contained, Nesting.run?, Nesting.step?, quote, opens, closing] at contained

/-- A reader stands outside literals and brackets behind a text exactly if the text leaves none
open. -/
theorem settled_iff_atTop (text : List Char) :
    Settled true text ↔ (Nesting.after {} text).atTop = true := by
  constructor
  · intro settled
    rw [settled.after]
    rfl
  · intro top
    exact settled_of_after (Part.eq_of_atTop top) (fun stray => nomatch stray)

end ThemeTemplates
