import Mathlib.Data.List.TakeWhile
import ThemeTemplates.Page.Token

/-!
# Literals in front of a delimiter

A literal ends where it ends no matter what stands behind a delimiter.
-/

namespace ThemeTemplates

/-- A text that no token in front of it runs on into: it begins with no character of a word and none
that goes on with a number or a sign. -/
def Delimits (text : List Char) : Prop :=
  ∀ c, text.head? = some c → isWordChar c = false ∧ c ∉ ['.', '+', '-', '/', '*', '=']

theorem Delimits.cons {c : Char} (rest : List Char) (word : isWordChar c = false)
    (sign : c ∉ ['.', '+', '-', '/', '*', '=']) : Delimits (c :: rest) := by
  intro d found
  cases found
  exact ⟨word, sign⟩

theorem Delimits.nil : Delimits [] :=
  fun _ found => nomatch found

theorem head?_append_of_delimits {first second : List Char} (h : Delimits second)
    (p : Char → Bool) (hp : ∀ c, p c = true → isWordChar c = true) :
    (first ++ second).head?.any p = first.head?.any p := by
  cases first with
  | cons c rest => rfl
  | nil =>
      cases second with
      | nil => rfl
      | cons c rest =>
          have word := (h c rfl).1
          simp only [List.nil_append, List.head?_cons, Option.any_some, List.head?_nil,
            Option.any_none]
          rw [← Bool.not_eq_true]
          intro holds
          rw [hp c holds] at word
          cases word

namespace Literal

/-! ### Texts -/

theorem splitText_spec {mark : Char} {chars inside after : List Char}
    (h : splitText mark chars = some (inside, after)) : chars = inside ++ mark :: after := by
  fun_induction splitText mark chars generalizing inside with
  | case1 => cases h
  | case2 c rest ih =>
      simp only [Option.map_eq_some_iff, Prod.exists, Prod.mk.injEq] at h
      obtain ⟨inside', after', found, rfl, rfl⟩ := h
      rw [ih found, List.cons_append, List.cons_append]
  | case3 c rest _ same =>
      cases h
      rw [beq_iff_eq] at same
      rw [same, List.nil_append]
  | case4 c rest _ _ ih =>
      simp only [Option.map_eq_some_iff, Prod.exists, Prod.mk.injEq] at h
      obtain ⟨inside', after', found, rfl, rfl⟩ := h
      rw [ih found, List.cons_append]

theorem splitText_plain {mark c : Char} {rest : List Char} (noEscape : c ≠ '\\') :
    splitText mark (c :: rest) =
      if c == mark then some ([], rest)
      else (splitText mark rest).map fun (inside, after) => (c :: inside, after) := by
  rw [splitText]
  exact fun _ _ escape _ => noEscape escape

theorem splitText_append {mark : Char} (hmark : mark ≠ '\\') {chars inside after : List Char}
    (h : splitText mark chars = some (inside, after)) (more : List Char) :
    splitText mark (chars ++ more) = some (inside, after ++ more) := by
  fun_induction splitText mark chars generalizing inside with
  | case1 => cases h
  | case2 c rest ih =>
      simp only [Option.map_eq_some_iff, Prod.exists, Prod.mk.injEq] at h
      obtain ⟨inside', after', found, rfl, rfl⟩ := h
      simp [splitText, ih found]
  | case3 c rest noEscape same =>
      cases h
      rw [beq_iff_eq] at same
      subst same
      rw [List.cons_append, splitText_plain hmark, if_pos (beq_self_eq_true c)]
  | case4 c rest noEscape other ih =>
      simp only [Option.map_eq_some_iff, Prod.exists, Prod.mk.injEq] at h
      obtain ⟨inside', after', found, rfl, rfl⟩ := h
      have plain : c ≠ '\\' := by
        rintro rfl
        cases rest with
        | nil => cases found
        | cons d rest => exact noEscape d rest rfl rfl
      rw [List.cons_append, splitText_plain plain, if_neg other, ih found]
      rfl

theorem next_plain {mark c : Char} (escape : c ≠ '\\') (other : c ≠ mark) :
    (Quotation.inside mark false).next c = .inside mark false := by
  simp [Quotation.next, escape, other]

theorem after_splitText {mark : Char} (hmark : mark ≠ '\\') {chars inside after : List Char}
    (h : splitText mark chars = some (inside, after)) :
    (Quotation.inside mark false).after (inside ++ [mark]) = .outside := by
  fun_induction splitText mark chars generalizing inside with
  | case1 => cases h
  | case2 c rest ih =>
      simp only [Option.map_eq_some_iff, Prod.exists, Prod.mk.injEq] at h
      obtain ⟨inside', after', found, rfl, rfl⟩ := h
      have tail := ih found
      exact tail
  | case3 c rest noEscape same =>
      cases h
      simp [Quotation.after, Quotation.next, hmark]
  | case4 c rest noEscape other ih =>
      simp only [Option.map_eq_some_iff, Prod.exists, Prod.mk.injEq] at h
      obtain ⟨inside', after', found, rfl, rfl⟩ := h
      have plain : c ≠ '\\' := by
        rintro rfl
        cases rest with
        | nil => cases found
        | cons d rest => exact noEscape d rest rfl rfl
      have tail := ih found
      show (Quotation.after ((Quotation.inside mark false).next c) (inside' ++ [mark])) = _
      rw [next_plain plain (by simpa using other)]
      exact tail

theorem splitText_isSome {mark : Char} {chars : List Char} {escaped : Bool}
    (h : (Quotation.inside mark escaped).after chars = .outside) :
    (splitText mark (if escaped then '\\' :: chars else chars)).isSome = true := by
  induction chars generalizing escaped with
  | nil => cases h
  | cons c rest ih =>
      cases escaped with
      | true =>
          have tail : (splitText mark rest).isSome = true := @ih false h
          simpa [splitText] using tail
      | false =>
          simp only [Bool.false_eq_true, if_false]
          by_cases escape : c = '\\'
          · subst escape
            exact @ih true h
          · rw [splitText_plain escape]
            split
            · rfl
            · next other =>
                have step := next_plain escape (by simpa using other : c ≠ mark)
                have inside : (Quotation.inside mark false).after rest = .outside := step ▸ h
                have tail : (splitText mark rest).isSome = true := @ih false inside
                simpa using tail

/-! ### Numbers -/

def isNumeric (c : Char) : Bool :=
  isWordChar c || c == '.' || c == '+' || c == '-'

theorem next?_numeric {part next : DecimalPart} {c : Char} (h : part.next? c = some next) :
    isNumeric c = true := by
  have digit : c.isDigit = true → isNumeric c = true := by
    intro h
    simp [isNumeric, isWordChar, Char.isAlphanum, h]
  unfold DecimalPart.next? at h
  split at h
  · next underscore =>
      rw [beq_iff_eq] at underscore
      subst underscore
      decide
  · have lower : isNumeric 'e' = true := by decide
    have upper : isNumeric 'E' = true := by decide
    cases part <;> simp only at h <;> grind [isNumeric, isWordChar]

theorem next?_underscore (part : DecimalPart) : part.next? '_' = some part := by
  simp [DecimalPart.next?]

theorem splitDecimal_spec {part last : DecimalPart} {chars taken after : List Char}
    (h : splitDecimal part chars = (last, taken, after)) :
    chars = taken ++ after ∧ (∀ c ∈ taken, isNumeric c = true) ∧ after.head? ≠ some '_' := by
  induction chars generalizing part taken with
  | nil =>
      cases h
      simp
  | cons c rest ih =>
      simp only [splitDecimal] at h
      split at h
      · next point =>
          cases h
          simp only [Bool.and_eq_true, beq_iff_eq] at point
          refine ⟨rfl, by simp, ?_⟩
          rw [point.1.2]
          simp
      · split at h
        · next part' step =>
            simp only [Prod.mk.injEq] at h
            obtain ⟨rfl, rfl, rfl⟩ := h
            obtain ⟨whole, numeric, ends⟩ := ih rfl
            refine ⟨by rw [List.cons_append, ← whole], fun d hd => ?_, ends⟩
            rcases List.mem_cons.mp hd with rfl | hd
            · exact next?_numeric step
            · exact numeric d hd
        · next stop =>
            cases h
            refine ⟨rfl, by simp, ?_⟩
            intro underscore
            simp only [List.head?_cons, Option.some.injEq] at underscore
            rw [underscore, next?_underscore] at stop
            cases stop

theorem next?_delimiter {part : DecimalPart} {c : Char} (word : isWordChar c = false)
    (sign : c ∉ ['.', '+', '-', '/', '*', '=']) : part.next? c = none := by
  cases step : part.next? c with
  | none => rfl
  | some next =>
      have numeric := next?_numeric step
      simp only [isNumeric, word, Bool.false_or, Bool.or_eq_true, beq_iff_eq] at numeric
      exact absurd (by rcases numeric with (rfl | rfl) | rfl <;> simp) sign

theorem splitDecimal_append {part last : DecimalPart} {chars taken after : List Char}
    (h : splitDecimal part chars = (last, taken, after)) {more : List Char}
    (hmore : Delimits more) :
    splitDecimal part (chars ++ more) = (last, taken, after ++ more) := by
  induction chars generalizing part taken with
  | nil =>
      cases h
      cases more with
      | nil => rfl
      | cons c rest =>
          obtain ⟨word, sign⟩ := hmore c rfl
          have noPoint : c ≠ '.' := by
            rintro rfl
            simp at sign
          simp [splitDecimal, noPoint, next?_delimiter word sign]
  | cons c rest ih =>
      have field : startsField (rest ++ more) = startsField rest := by
        refine head?_append_of_delimits hmore _ fun c hc => ?_
        simp only [Bool.and_eq_true] at hc
        exact isWordStart_isWordChar hc.1.1
      simp only [List.cons_append, splitDecimal, field] at h ⊢
      split at h
      · next point =>
          cases h
          simp [point]
      · next noPoint =>
          rw [if_neg noPoint]
          split at h
          · next part' step =>
              simp only [Prod.mk.injEq] at h
              obtain ⟨rfl, rfl, rfl⟩ := h
              rw [ih rfl]
          · cases h
            rfl

theorem hexValue?_word {c : Char} (h : (hexValue? c).isSome = true) : isWordChar c = true := by
  have word : c.isDigit = true ∨ c.isLower = true ∨ c.isUpper = true := by
    unfold hexValue? at h
    split at h
    · next digit => exact .inl digit
    · split at h
      · next lower =>
          simp only [Bool.and_eq_true, decide_eq_true_eq] at lower
          have below : 'f' ≤ 'z' := by decide
          exact .inr (.inl (Bool.and_eq_true _ _ ▸ ⟨decide_eq_true lower.1,
            decide_eq_true (Char.le_trans lower.2 below)⟩))
      · split at h
        · next upper =>
            simp only [Bool.and_eq_true, decide_eq_true_eq] at upper
            have below : 'F' ≤ 'Z' := by decide
            right
            right
            rw [isUpper_eq]
            exact decide_eq_true ⟨upper.1, Char.le_trans upper.2 below⟩
        · cases h
  rcases word with word | word | word <;> simp [isWordChar, Char.isAlphanum, isAlpha_eq, word]

theorem radix?_word {c : Char} {radix : Nat} (h : radix? c = some radix) : isWordChar c = true := by
  unfold radix? at h
  simp only [Bool.or_eq_true, beq_iff_eq] at h
  split at h
  · next letter => rcases letter with rfl | rfl <;> decide
  · split at h
    · next letter => rcases letter with rfl | rfl <;> decide
    · split at h
      · next letter => rcases letter with rfl | rfl <;> decide
      · cases h

def isDigitOf (radix : Nat) (c : Char) : Bool :=
  c.isDigit || c == '_' || (radix == 16 && (hexValue? c).isSome)

theorem isDigitOf_word {radix : Nat} {c : Char} (h : isDigitOf radix c = true) :
    isWordChar c = true := by
  simp only [isDigitOf, Bool.or_eq_true, beq_iff_eq, Bool.and_eq_true] at h
  rcases h with (digit | rfl) | ⟨-, hex⟩
  · simp [isWordChar, Char.isAlphanum, digit]
  · decide
  · exact hexValue?_word hex

theorem readInRadix_eq (radix : Nat) (chars : List Char) :
    readInRadix radix chars =
      (wholeNumber radix (chars.takeWhile (isDigitOf radix)), chars.dropWhile (isDigitOf radix)) :=
  rfl

theorem takeWhile_append_of_delimits {p : Char → Bool} (hp : ∀ c, p c = true → isWordChar c = true)
    (chars : List Char) {more : List Char} (hmore : Delimits more) :
    (chars ++ more).takeWhile p = chars.takeWhile p ∧
      (chars ++ more).dropWhile p = chars.dropWhile p ++ more := by
  induction chars with
  | nil =>
      cases more with
      | nil => exact ⟨rfl, rfl⟩
      | cons c rest =>
          have stops : p c = false := by
            rw [← Bool.not_eq_true]
            intro holds
            have word := (hmore c rfl).1
            rw [hp c holds] at word
            cases word
          simp [stops]
  | cons c rest ih =>
      by_cases holds : p c = true
      · simp [holds, ih]
      · simp [holds]

theorem readNumber_spec {c : Char} {chars after : List Char} {result : Except PageFlaw Number}
    (digit : c.isDigit = true) (h : readNumber (c :: chars) = (result, after)) :
    ∃ taken, c :: chars = c :: taken ++ after ∧ (∀ d ∈ c :: taken, isNumeric d = true) ∧
      after.head? ≠ some '_' := by
  have numeric : isNumeric c = true := by simp [isNumeric, isWordChar, Char.isAlphanum, digit]
  have decimal : ∀ {result after}, readDecimal (c :: chars) = (result, after) →
      ∃ taken, c :: chars = c :: taken ++ after ∧ (∀ d ∈ c :: taken, isNumeric d = true) ∧
        after.head? ≠ some '_' := by
    intro result after h
    cases split : splitDecimal .whole (c :: chars) with
    | mk last rest =>
        obtain ⟨taken, after'⟩ := rest
        simp only [readDecimal, split, Prod.mk.injEq] at h
        obtain ⟨-, rfl⟩ := h
        obtain ⟨whole, all, ends⟩ := splitDecimal_spec split
        cases taken with
        | nil =>
            have noPoint : c ≠ '.' := by
              rintro rfl
              cases digit
            have step : DecimalPart.whole.next? c ≠ none := by
              simp only [DecimalPart.next?, digit, if_true]
              split
              · simp
              · split
                · simp
                · split <;> simp
            simp only [splitDecimal, decide_true, Bool.true_and, beq_iff_eq, noPoint,
              Bool.and_eq_true, false_and, if_false] at split
            cases next : DecimalPart.whole.next? c with
            | none => exact absurd next step
            | some part => simp [next] at split
        | cons d taken =>
            cases whole
            exact ⟨taken, rfl, all, ends⟩
  unfold readNumber at h
  split at h
  · next d rest same =>
      cases same
      split at h
      · next radix found =>
          simp only [readInRadix_eq, Prod.mk.injEq] at h
          obtain ⟨-, rfl⟩ := h
          refine ⟨d :: rest.takeWhile _, by rw [List.cons_append, List.cons_append,
            List.takeWhile_append_dropWhile], fun e he => ?_, fun underscore => ?_⟩
          · simp only [List.mem_cons] at he
            rcases he with rfl | rfl | he
            · exact numeric
            · simp [isNumeric, radix?_word found]
            · simp [isNumeric, isDigitOf_word (List.mem_takeWhile_imp he)]
          · have ends := List.head?_dropWhile_not (isDigitOf radix) rest
            rw [underscore] at ends
            simp [isDigitOf] at ends
      · exact decimal h
  · exact decimal h

theorem readDecimal_append {chars after : List Char} {result : Except PageFlaw Number}
    (h : readDecimal chars = (result, after)) {more : List Char} (hmore : Delimits more) :
    readDecimal (chars ++ more) = (result, after ++ more) := by
  cases split : splitDecimal .whole chars with
  | mk last rest =>
      obtain ⟨taken, after'⟩ := rest
      simp only [readDecimal, split, splitDecimal_append split hmore, Prod.mk.injEq] at h ⊢
      exact ⟨h.1, by rw [h.2]⟩

theorem radix?_delimiter {c : Char} (h : isWordChar c = false) : radix? c = none := by
  cases found : radix? c with
  | none => rfl
  | some radix =>
      rw [radix?_word found] at h
      cases h

theorem readNumber_of_ne {c : Char} (h : c ≠ '0') (rest : List Char) :
    readNumber (c :: rest) = readDecimal (c :: rest) := by
  unfold readNumber
  split
  · next same =>
      cases same
      exact absurd rfl h
  · rfl

theorem readNumber_append {chars after : List Char} {result : Except PageFlaw Number}
    (h : readNumber chars = (result, after)) {more : List Char} (hmore : Delimits more) :
    readNumber (chars ++ more) = (result, after ++ more) := by
  cases chars with
  | nil =>
      have decimal := readDecimal_append (show readDecimal [] = _ from h) hmore
      cases more with
      | nil => exact decimal
      | cons c rest =>
          have noZero : c ≠ '0' := by
            rintro rfl
            cases (hmore '0' rfl).1
          rw [List.nil_append, readNumber_of_ne noZero]
          exact decimal
  | cons c rest =>
      by_cases zero : c = '0'
      · subst zero
        cases rest with
        | nil =>
            have decimal := readDecimal_append (show readDecimal ['0'] = _ from h) hmore
            cases more with
            | nil => exact decimal
            | cons c rest =>
                simp only [List.cons_append, List.nil_append, readNumber,
                  radix?_delimiter (hmore c rfl).1]
                exact decimal
        | cons c rest =>
            simp only [List.cons_append, readNumber] at h ⊢
            cases found : radix? c with
            | some radix =>
                have word : ∀ c, isDigitOf radix c = true → isWordChar c = true :=
                  fun _ => isDigitOf_word
                obtain ⟨taken, dropped⟩ := takeWhile_append_of_delimits word rest hmore
                simp only [found, readInRadix_eq, Prod.mk.injEq] at h ⊢
                rw [taken, dropped, h.2]
                exact ⟨h.1, rfl⟩
            | none =>
                simp only [found] at h ⊢
                exact readDecimal_append h hmore
      · rw [readNumber_of_ne zero] at h
        rw [List.cons_append, readNumber_of_ne zero]
        exact readDecimal_append h hmore

end Literal

end ThemeTemplates
