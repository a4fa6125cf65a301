import ThemeTemplates.Proofs.Page.Numerals
import ThemeTemplates.Proofs.Text.Parts

/-!
# Tokens of a text

The tokens inside a tag without their lines. What stands in front of a delimiter is read on its own;
brackets outside literals become bracket tokens, and names of a text become name tokens.
-/

namespace ThemeTemplates

namespace Token

/-- The stretch of a text that is read as a token, given what follows it. -/
inductive Chunk : Token → List Char → List Char → Prop
  | pair {c d : Char} {after : List Char} (paired : pairedSigns.contains [c, d] = true) :
    Chunk (sign (String.ofList [c, d])) [c, d] after
  | sign {c : Char} {after : List Char} (single : signs.contains c = true)
    (alone : pairedSigns.contains ((c :: after).take 2) = false) : Chunk (sign c.toString) [c] after
  | literal {mark : Char} {inside text after : List Char} (quote : isQuote mark = true)
    (split : Literal.splitText mark (inside ++ mark :: after) = some (inside, after))
    (value : Literal.unescape inside.length inside = some text) :
    Chunk (literal (String.ofList text)) (mark :: inside ++ [mark]) after
  | number {c : Char} {taken after : List Char} {n : Number} (digit : c.isDigit = true)
    (value : Literal.readNumber (c :: taken ++ after) = (.ok n, after))
    (numeric : ∀ d ∈ c :: taken, Literal.isNumeric d = true) (ends : after.head? ≠ some '_') :
    Chunk (number n) (c :: taken) after
  | name {c : Char} {word after : List Char} (start : isWordStart c = true)
    (letters : ∀ d ∈ word, isWordChar d = true) (ends : after.head?.any isWordChar = false) :
    Chunk (name (String.ofList (c :: word))) (c :: word) after

theorem eq_of_pairedSigns {chars : List Char} (h : pairedSigns.contains chars = true) :
    ∃ c d, chars = [c, d] ∧ c ∈ ['/', '*', '=', '!', '>', '<'] ∧ d ∈ ['/', '*', '='] := by
  simp only [pairedSigns, List.contains_iff_mem, List.mem_cons, List.not_mem_nil, or_false] at h
  rcases h with rfl | rfl | rfl | rfl | rfl | rfl <;> exact ⟨_, _, rfl, by decide, by decide⟩

theorem notPaired {c : Char} (h : c ∉ ['/', '*', '=', '!', '>', '<']) (rest : List Char) :
    pairedSigns.contains ((c :: rest).take 2) = false := by
  rw [← Bool.not_eq_true]
  intro paired
  obtain ⟨d, e, same, first, _⟩ := eq_of_pairedSigns paired
  cases rest with
  | nil => cases same
  | cons f rest =>
      cases same
      exact h first

theorem not_wordChar_of_mem_signs : ∀ c ∈ signs, isWordChar c = false := by
  have all : (signs.all fun c => !isWordChar c) = true := by decide
  simpa using all

theorem wordChar_notSign {c : Char} (h : isWordChar c = true) :
    c ∉ ['/', '*', '=', '!', '>', '<'] ∧ signs.contains c = false ∧ isQuote c = false := by
  refine ⟨?_, ?_, ?_⟩
  · intro first
    simp only [List.mem_cons, List.not_mem_nil, or_false] at first
    rcases first with rfl | rfl | rfl | rfl | rfl | rfl <;> cases h
  · rw [← Bool.not_eq_true]
    intro single
    rw [not_wordChar_of_mem_signs c (List.contains_iff_mem.mp single)] at h
    cases h
  · rw [← Bool.not_eq_true]
    intro quote
    simp only [isQuote, Bool.or_eq_true, beq_iff_eq] at quote
    rcases quote with rfl | rfl <;> cases h

theorem quote_notSign {c : Char} (h : isQuote c = true) :
    c ∉ ['/', '*', '=', '!', '>', '<'] ∧ signs.contains c = false ∧ c.isDigit = false := by
  simp only [isQuote, Bool.or_eq_true, beq_iff_eq] at h
  rcases h with rfl | rfl <;> decide +kernel

theorem digit_word {c : Char} (h : c.isDigit = true) : isWordChar c = true := by
  simp [isWordChar, Char.isAlphanum, h]

theorem read_cases (c : Char) (rest : List Char) :
    (∃ flaw after, read (c :: rest) = (.flaw flaw, after)) ∨
      ∃ token chunk after, read (c :: rest) = (token, after) ∧ c :: rest = chunk ++ after ∧
        Chunk token chunk after := by
  unfold read
  simp only
  split
  · next paired =>
      obtain ⟨d, e, same, _⟩ := eq_of_pairedSigns paired
      refine .inr ⟨_, [d, e], (c :: rest).drop 2, rfl, ?_, ?_⟩
      · rw [← same, List.take_append_drop]
      · rw [same] at paired ⊢
        exact .pair paired
  · next alone =>
      split
      · next single =>
          exact .inr ⟨_, [c], rest, rfl, rfl, .sign single (by simpa using alone)⟩
      · split
        · next quote =>
            unfold Literal.readText
            cases split : Literal.splitText c rest with
            | none => exact .inl ⟨_, _, rfl⟩
            | some cut =>
                obtain ⟨inside, after⟩ := cut
                cases value : Literal.unescape inside.length inside with
                | none => 
                    simp only [value]
                    exact .inl ⟨_, _, rfl⟩
                | some text =>
                    simp only [value]
                    have whole := Literal.splitText_spec split
                    refine .inr ⟨_, c :: inside ++ [c], after, rfl, by simp [whole], ?_⟩
                    exact .literal quote (whole ▸ split) value
        · split
          · next digit =>
              cases value : Literal.readNumber (c :: rest) with
              | mk result after =>
                  cases result with
                  | error flaw => exact .inl ⟨_, _, rfl⟩
                  | ok n =>
                      obtain ⟨taken, whole, numeric, ends⟩ := Literal.readNumber_spec digit value
                      exact .inr ⟨_, c :: taken, after, rfl, whole,
                        .number digit (whole ▸ value) numeric ends⟩
          · split
            · next start =>
                have word := isWordStart_isWordChar start
                rw [List.takeWhile_cons_of_pos word, List.dropWhile_cons_of_pos word]
                refine .inr ⟨_, c :: rest.takeWhile isWordChar, rest.dropWhile isWordChar,
                  rfl, ?_, ?_⟩
                · rw [List.cons_append, List.takeWhile_append_dropWhile]
                · refine .name start (fun d hd => List.mem_takeWhile_imp hd) ?_
                  have ends := List.head?_dropWhile_not isWordChar rest
                  revert ends
                  cases (rest.dropWhile isWordChar).head? with
                  | none => exact fun _ => rfl
                  | some d => exact id
            · exact .inl ⟨_, _, rfl⟩

theorem wordStart_notDigit {c : Char} (h : isWordStart c = true) : c.isDigit = false := by
  rw [← Bool.not_eq_true]
  intro digit
  simp only [isWordStart, isAlpha_eq, isUpper_eq, isLower_eq, Char.isDigit, Bool.or_eq_true,
    Bool.and_eq_true, decide_eq_true_eq, beq_iff_eq, UInt32.le_iff_toNat_le] at h digit
  rcases h with (h | h) | rfl
  · have := h.1
    have := digit.2
    simp at *
    omega
  · have := h.1
    have := digit.2
    simp at *
    omega
  · simp at digit

theorem takeWhile_word {word after : List Char} (letters : ∀ d ∈ word, isWordChar d = true)
    (ends : after.head?.any isWordChar = false) :
    (word ++ after).takeWhile isWordChar = word ∧ (word ++ after).dropWhile isWordChar = after := by
  rw [List.takeWhile_append_of_pos letters, List.dropWhile_append_of_pos letters]
  cases after with
  | nil => simp
  | cons c rest =>
      have stops : isWordChar c = false := ends
      simp [stops]

theorem read_of_chunk {token : Token} {chunk after : List Char} (h : Chunk token chunk after) :
    read (chunk ++ after) = (token, after) := by
  cases h with
  | @pair c d after paired =>
      show (if pairedSigns.contains [c, d] then _ else _) = _
      rw [if_pos paired]
      rfl
  | sign single alone =>
      simp only [read, List.cons_append, List.nil_append]
      rw [if_neg (by simpa using alone), if_pos single]
  | @literal mark inside text after quote split value =>
      obtain ⟨first, single, -⟩ := quote_notSign quote
      simp only [read, List.cons_append, List.append_assoc, List.nil_append]
      rw [if_neg (ne_true_of_eq_false (notPaired first _)), if_neg (ne_true_of_eq_false single),
        if_pos quote]
      unfold Literal.readText
      rw [split]
      simp only [value]
      rfl
  | @number c taken after n digit value numeric ends =>
      obtain ⟨first, single, quote⟩ := wordChar_notSign (digit_word digit)
      simp only [read, List.cons_append] at value ⊢
      rw [if_neg (ne_true_of_eq_false (notPaired first _)), if_neg (ne_true_of_eq_false single),
        if_neg (ne_true_of_eq_false quote), if_pos digit, value]
      rfl
  | @name c word after start letters ends =>
      obtain ⟨first, single, quote⟩ := wordChar_notSign (isWordStart_isWordChar start)
      have all : ∀ d ∈ c :: word, isWordChar d = true := by
        simp only [List.mem_cons, forall_eq_or_imp]
        exact ⟨isWordStart_isWordChar start, letters⟩
      have taken := takeWhile_word all ends
      rw [List.cons_append] at taken
      simp only [read, List.cons_append]
      rw [if_neg (ne_true_of_eq_false (notPaired first _)), if_neg (ne_true_of_eq_false single),
        if_neg (ne_true_of_eq_false quote), if_neg (ne_true_of_eq_false (wordStart_notDigit start)),
        if_pos start, taken.1, taken.2]

theorem notPaired_append {c : Char} {after more : List Char}
    (alone : pairedSigns.contains ((c :: after).take 2) = false) (hmore : Delimits more) :
    pairedSigns.contains ((c :: (after ++ more)).take 2) = false := by
  cases after with
  | cons d after => exact alone
  | nil =>
      cases more with
      | nil => exact alone
      | cons d more =>
          rw [← Bool.not_eq_true]
          intro paired
          obtain ⟨e, f, same, -, second⟩ := eq_of_pairedSigns paired
          cases same
          obtain ⟨-, sign⟩ := hmore d rfl
          refine sign ?_
          simp only [List.mem_cons, List.not_mem_nil, or_false] at second ⊢
          rcases second with rfl | rfl | rfl <;> simp

theorem Chunk.append {token : Token} {chunk after more : List Char} (h : Chunk token chunk after)
    (hmore : Delimits more) : Chunk token chunk (after ++ more) := by
  cases h with
  | pair paired => exact .pair paired
  | @sign c _ single alone => exact .sign single (notPaired_append alone hmore)
  | @literal mark inside text after quote split value =>
      refine .literal quote ?_ value
      have noEscape : mark ≠ '\\' := by
        rintro rfl
        cases quote
      have longer := Literal.splitText_append noEscape split more
      rwa [List.append_assoc, List.cons_append] at longer
  | @number c taken after n digit value numeric ends =>
      refine .number digit ?_ numeric ?_
      · have longer := Literal.readNumber_append value hmore
        rwa [List.append_assoc] at longer
      · cases after with
        | cons d after => exact ends
        | nil =>
            intro underscore
            cases (hmore '_' underscore).1
  | @name c word after start letters ends =>
      refine .name start letters ?_
      rw [head?_append_of_delimits hmore isWordChar fun _ => id]
      exact ends

/-! ### The tokens of a text -/

def tokensWithin : Nat → List Char → List Token
  | 0, _ => []
  | bound + 1, chars =>
    match chars.dropWhile isAsciiBlank with
    | [] => []
    | chars =>
      match read chars with
      | (flaw reason, _) => [flaw reason]
      | (token, after) => token :: tokensWithin bound after

theorem tokensWithin_blank {bound : Nat} {chars : List Char}
    (h : chars.dropWhile isAsciiBlank = []) : tokensWithin bound chars = [] := by
  cases bound with
  | zero => rfl
  | succ bound => simp only [tokensWithin, h]

theorem tokensWithin_flaw {bound : Nat} {chars rest after : List Char} {c : Char}
    {reason : PageFlaw} (h : chars.dropWhile isAsciiBlank = c :: rest)
    (first : read (c :: rest) = (flaw reason, after)) :
    tokensWithin (bound + 1) chars = [flaw reason] := by
  simp only [tokensWithin, h, first]

theorem tokensWithin_chunk {bound : Nat} {chars rest chunk after : List Char} {c : Char}
    {token : Token} (h : chars.dropWhile isAsciiBlank = c :: rest)
    (first : read (c :: rest) = (token, after)) (chunked : Chunk token chunk after) :
    tokensWithin (bound + 1) chars = token :: tokensWithin bound after := by
  simp only [tokensWithin, h, first]
  cases chunked <;> rfl

theorem map_token_inTag (bound before line : Nat) (chars : List Char) :
    (inTag bound before line chars).map Lexeme.token = tokensWithin bound chars := by
  induction bound generalizing before line chars with
  | zero => rfl
  | succ bound ih =>
      cases kept : chars.dropWhile isAsciiBlank with
      | nil =>
          rw [tokensWithin_blank kept]
          simp only [inTag, kept, List.map_nil]
      | cons c rest =>
          rcases read_cases c rest with ⟨reason, after, first⟩ | ⟨token, chunk, after,
            first, _, chunked⟩
          · rw [tokensWithin_flaw kept first]
            cases reason <;> simp only [inTag, kept, first, List.map_cons, List.map_nil]
          · rw [tokensWithin_chunk kept first chunked]
            simp only [inTag, kept, first]
            cases chunked <;> simp only [List.map_cons, ih]

def tokensOf (chars : List Char) : List Token :=
  tokensWithin chars.length chars

theorem Chunk.length_pos {token : Token} {chunk after : List Char} (h : Chunk token chunk after) :
    0 < chunk.length := by
  cases h <;> simp

theorem tokensWithin_eq {bound bound' : Nat} {chars : List Char} (h : chars.length ≤ bound)
    (h' : chars.length ≤ bound') : tokensWithin bound chars = tokensWithin bound' chars := by
  induction bound generalizing bound' chars with
  | zero =>
      rw [List.length_eq_zero_iff.mp (Nat.le_zero.mp h)]
      cases bound' <;> rfl
  | succ bound ih =>
      cases bound' with
      | zero =>
          rw [List.length_eq_zero_iff.mp (Nat.le_zero.mp h')]
          rfl
      | succ bound' =>
          cases kept : chars.dropWhile isAsciiBlank with
          | nil => rw [tokensWithin_blank kept, tokensWithin_blank kept]
          | cons c rest =>
              have shorter := length_dropWhile_le isAsciiBlank chars
              rw [kept] at shorter
              rcases read_cases c rest with ⟨reason, after, first⟩ | ⟨token, chunk, after, first,
                whole, chunked⟩
              · rw [tokensWithin_flaw kept first, tokensWithin_flaw kept first]
              · have progress := chunked.length_pos
                have total := congrArg List.length whole
                simp only [List.length_append, List.length_cons] at total shorter
                rw [tokensWithin_chunk kept first chunked, tokensWithin_chunk kept first chunked]
                exact congrArg _ (ih (by omega) (by omega))

theorem tokensOf_nil : tokensOf [] = [] :=
  rfl

theorem tokensOf_blank {c : Char} (h : isAsciiBlank c = true) (rest : List Char) :
    tokensOf (c :: rest) = tokensOf rest := by
  have same : tokensWithin (rest.length + 1) (c :: rest) = tokensWithin (rest.length + 1) rest := by
    simp only [tokensWithin, List.dropWhile_cons_of_pos h]
  exact same.trans (tokensWithin_eq (by omega) (by omega))

theorem not_blank_of_mem_signs : ∀ c ∈ signs, isAsciiBlank c = false := by
  have all : (signs.all fun c => !isAsciiBlank c) = true := by decide
  simpa using all

theorem Chunk.exists_cons {token : Token} {chunk after : List Char} (h : Chunk token chunk after) :
    ∃ c rest, chunk = c :: rest ∧ isAsciiBlank c = false := by
  cases h with
  | @pair c d _ paired =>
      refine ⟨c, [d], rfl, ?_⟩
      obtain ⟨e, f, same, first, -⟩ := eq_of_pairedSigns paired
      cases same
      simp only [List.mem_cons, List.not_mem_nil, or_false] at first
      rcases first with rfl | rfl | rfl | rfl | rfl | rfl <;> decide
  | sign single => exact ⟨_, [], rfl, not_blank_of_mem_signs _ (List.contains_iff_mem.mp single)⟩
  | @literal mark inside _ _ quote =>
      refine ⟨mark, inside ++ [mark], rfl, ?_⟩
      simp only [isQuote, Bool.or_eq_true, beq_iff_eq] at quote
      rcases quote with rfl | rfl <;> decide
  | number digit => exact ⟨_, _, rfl, not_isAsciiBlank_of_isWordChar (digit_word digit)⟩
  | name start => exact ⟨_, _, rfl, not_isAsciiBlank_of_isWordChar (isWordStart_isWordChar start)⟩

theorem tokensOf_chunk {token : Token} {chunk after : List Char} (h : Chunk token chunk after) :
    tokensOf (chunk ++ after) = token :: tokensOf after := by
  obtain ⟨c, rest, rfl, visible⟩ := h.exists_cons
  have first := read_of_chunk h
  have kept : (c :: rest ++ after).dropWhile isAsciiBlank = c :: (rest ++ after) :=
    List.dropWhile_cons_of_neg (by simp [visible])
  show tokensWithin ((rest ++ after).length + 1) (c :: rest ++ after) = _
  rw [tokensWithin_chunk kept first h]
  exact congrArg _ (tokensWithin_eq (by simp) (le_refl _))

theorem tokensOf_flaw {c : Char} {rest after : List Char} {reason : PageFlaw}
    (visible : isAsciiBlank c = false) (first : read (c :: rest) = (flaw reason, after)) :
    tokensOf (c :: rest) = [flaw reason] := by
  have kept : (c :: rest).dropWhile isAsciiBlank = c :: rest :=
    List.dropWhile_cons_of_neg (by simp [visible])
  exact tokensWithin_flaw kept first

theorem tokensOf_induction {P : List Char → List Token → Prop} (nil : P [] [])
    (blank : ∀ c rest, isAsciiBlank c = true → P rest (tokensOf rest) →
      P (c :: rest) (tokensOf rest))
    (stop : ∀ c rest reason after, isAsciiBlank c = false →
      read (c :: rest) = (flaw reason, after) → P (c :: rest) [flaw reason])
    (chunk : ∀ token chunk after, Chunk token chunk after → P after (tokensOf after) →
      P (chunk ++ after) (token :: tokensOf after)) (chars : List Char) :
    P chars (tokensOf chars) := by
  induction length : chars.length using Nat.strong_induction_on generalizing chars with
  | _ n ih =>
      cases chars with
      | nil => exact nil
      | cons c rest =>
          cases visible : isAsciiBlank c with
          | true =>
              rw [tokensOf_blank visible]
              exact blank c rest visible (ih rest.length (by simp [← length]) rest rfl)
          | false =>
              rcases read_cases c rest with
                ⟨reason, after, first⟩ | ⟨token, taken, after, first, whole, chunked⟩
              · rw [tokensOf_flaw visible first]
                exact stop c rest reason after visible first
              · have shorter : after.length < n := by
                  have total := congrArg List.length whole
                  have progress := chunked.length_pos
                  rw [List.length_append, length] at total
                  omega
                rw [whole, tokensOf_chunk chunked]
                exact chunk token taken after chunked (ih after.length shorter after rfl)

/-! ### Tokens in front of a delimiter -/

theorem after_outside_of_noQuote {text : List Char} (h : ∀ c ∈ text, isQuote c = false) :
    Quotation.after .outside text = .outside := by
  induction text with
  | nil => rfl
  | cons c rest ih =>
      have step : Quotation.next .outside c = .outside := by
        simp [Quotation.next, h c List.mem_cons_self]
      show Quotation.after (Quotation.next .outside c) rest = _
      rw [step]
      exact ih fun d hd => h d (List.mem_cons_of_mem _ hd)

theorem not_quote_of_mem_signs : ∀ c ∈ signs, isQuote c = false := by
  have all : (signs.all fun c => !isQuote c) = true := by decide
  simpa using all

theorem numeric_notQuote {c : Char} (h : Literal.isNumeric c = true) : isQuote c = false := by
  rw [← Bool.not_eq_true]
  intro quote
  simp only [isQuote, Bool.or_eq_true, beq_iff_eq] at quote
  rcases quote with rfl | rfl <;> cases h

theorem Chunk.closed {token : Token} {chunk after : List Char} (h : Chunk token chunk after) :
    Quotation.after .outside chunk = .outside := by
  cases h with
  | @pair c d _ paired =>
      obtain ⟨e, f, same, first, second⟩ := eq_of_pairedSigns paired
      cases same
      refine after_outside_of_noQuote fun x hx => ?_
      simp only [List.mem_cons, List.not_mem_nil, or_false] at hx first second
      rcases hx with rfl | rfl
      · rcases first with rfl | rfl | rfl | rfl | rfl | rfl <;> decide
      · rcases second with rfl | rfl | rfl <;> decide
  | @sign c _ single =>
      refine after_outside_of_noQuote fun x hx => ?_
      rw [List.mem_singleton.mp hx]
      exact not_quote_of_mem_signs _ (List.contains_iff_mem.mp single)
  | @literal mark inside _ after quote split =>
      have noEscape : mark ≠ '\\' := by
        rintro rfl
        cases quote
      have opened : Quotation.next .outside mark = .inside mark false := by
        simp [Quotation.next, quote]
      show Quotation.after (Quotation.next .outside mark) (inside ++ [mark]) = _
      rw [opened]
      exact Literal.after_splitText noEscape split
  | number _ _ numeric => exact after_outside_of_noQuote fun x hx => numeric_notQuote (numeric x hx)
  | @name c word _ start letters =>
      refine after_outside_of_noQuote fun x hx => ?_
      rcases List.mem_cons.mp hx with rfl | hx
      · exact (wordChar_notSign (isWordStart_isWordChar start)).2.2
      · exact (wordChar_notSign (letters x hx)).2.2

theorem Chunk.not_flaw {token : Token} {chunk after : List Char} (h : Chunk token chunk after)
    (reason : PageFlaw) : token ≠ flaw reason := by
  cases h <;> exact Token.noConfusion

theorem read_flaw_append {c : Char} {rest after more : List Char} {reason : PageFlaw}
    (closed : Quotation.after .outside (c :: rest) = .outside) (hmore : Delimits more)
    (first : read (c :: rest) = (flaw reason, after)) :
    ∃ after', read (c :: (rest ++ more)) = (flaw reason, after') := by
  unfold read at first ⊢
  simp only at first ⊢
  split at first
  · cases first
  next alone =>
  rw [if_neg (ne_true_of_eq_false (notPaired_append (Bool.not_eq_true _ ▸ alone) hmore))]
  split at first
  · cases first
  next notSingle =>
  rw [if_neg notSingle]
  split at first
  · next quote =>
      rw [if_pos quote]
      have noEscape : c ≠ '\\' := by
        rintro rfl
        cases quote
      have opened : Quotation.next .outside c = .inside c false := by
        simp [Quotation.next, quote]
      have inside : Quotation.after (.inside c false) rest = .outside := opened ▸ closed
      obtain ⟨⟨written, following⟩, split⟩ :=
        Option.isSome_iff_exists.mp (Literal.splitText_isSome inside)
      simp only [Bool.false_eq_true, if_false] at split
      unfold Literal.readText at first ⊢
      rw [Literal.splitText_append noEscape split]
      rw [split] at first
      simp only at first ⊢
      split at first
      · cases first
      · cases first
        exact ⟨_, rfl⟩
  · next noQuote =>
      rw [if_neg noQuote]
      split at first
      · next digit =>
          rw [if_pos digit]
          cases value : Literal.readNumber (c :: rest) with
          | mk result following =>
              have longer := Literal.readNumber_append value hmore
              rw [List.cons_append] at longer
              rw [longer]
              rw [value] at first
              cases result with
              | ok n => cases first
              | error reason =>
                  cases first
                  exact ⟨_, rfl⟩
      · next noDigit =>
          rw [if_neg noDigit]
          split at first
          · cases first
          · next noStart =>
              rw [if_neg noStart]
              cases first
              exact ⟨_, rfl⟩

/-- A text that ends outside literals keeps its tokens in front of a delimiter, unless they stop
with a flaw. -/
theorem tokensOf_append {text more : List Char}
    (closed : Quotation.after .outside text = .outside) (hmore : Delimits more) :
    (∃ reason, flaw reason ∈ tokensOf text ∧ tokensOf (text ++ more) = tokensOf text) ∨
      ((∀ reason, flaw reason ∉ tokensOf text) ∧
        tokensOf (text ++ more) = tokensOf text ++ tokensOf more) := by
  revert closed
  refine tokensOf_induction (P := fun text tokens => Quotation.after .outside text = .outside →
    (∃ reason, flaw reason ∈ tokens ∧ tokensOf (text ++ more) = tokens) ∨
      ((∀ reason, flaw reason ∉ tokens) ∧ tokensOf (text ++ more) = tokens ++ tokensOf more))
    ?_ ?_ ?_ ?_ text
  · exact fun _ => .inr ⟨by simp, rfl⟩
  · intro c rest blank ih closed
    rw [List.cons_append, tokensOf_blank blank]
    refine ih ?_
    have step : Quotation.next .outside c = .outside := by
      simp [Quotation.next, (not_quote_of_blank (Part.isBlank_of_isAsciiBlank blank)).1]
    have tail : Quotation.after (Quotation.next .outside c) rest = .outside := closed
    rwa [step] at tail
  · intro c rest reason after visible first closed
    obtain ⟨after', first'⟩ := read_flaw_append closed hmore first
    exact .inl ⟨reason, List.mem_singleton_self _, tokensOf_flaw visible first'⟩
  · intro token chunk after chunked ih closed
    rw [List.append_assoc, tokensOf_chunk (chunked.append hmore)]
    have closedAfter : Quotation.after .outside after = .outside := by
      rw [Quotation.after, List.foldl_append] at closed
      exact (congrArg (fun q => Quotation.after q after) chunked.closed).symm.trans closed
    rcases ih closedAfter with ⟨reason, hmem, same⟩ | ⟨none, same⟩
    · exact .inl ⟨reason, List.mem_cons_of_mem _ hmem, by rw [same]⟩
    · refine .inr ⟨fun reason hmem => ?_, by rw [same, List.cons_append]⟩
      rcases List.mem_cons.mp hmem with same | hmem
      · exact chunked.not_flaw reason same.symm
      · exact none reason hmem

/-! ### Names -/

/-- A name that begins with two underscores. -/
def IsHidden (name : String) : Prop :=
  ['_', '_'] <+: name.toList

theorem showsNames_weaken {q : Quotation} {afterWord : Bool} {text : List Char}
    (h : showsNames q afterWord text = true) : showsNames q true text = true := by
  cases text with
  | nil => rfl
  | cons c rest =>
      simp only [showsNames, Bool.and_eq_true] at h ⊢
      exact ⟨by simp, h.2⟩

theorem showsNames_drop {q : Quotation} {afterWord : Bool} {first second : List Char}
    (h : showsNames q afterWord (first ++ second) = true) :
    showsNames (q.after first) true second = true := by
  induction first generalizing q afterWord with
  | nil => exact showsNames_weaken h
  | cons c rest ih =>
      simp only [List.cons_append, showsNames, Bool.and_eq_true] at h
      exact ih h.2

theorem endsWord_sign {c : Char} (h : isWordChar c = false) (noSigil : c ≠ '$')
    (before : List Char) : EndsWord (before ++ [c]) := by
  intro d last
  rw [List.getLast?_concat] at last
  cases last
  exact ⟨h, noSigil⟩

theorem not_sigil_of_mem_signs : ∀ c ∈ signs, c ≠ '$' := by
  have all : (signs.all fun c => c != '$') = true := by decide
  simpa using all

/-- What follows a token: after a number or a name it does not begin with an underscore. -/
theorem Chunk.showsNames {token : Token} {chunk after : List Char} (h : Chunk token chunk after)
    {afterWord : Bool} (shows : showsNames .outside afterWord (chunk ++ after) = true) :
    ∃ afterWord', ThemeTemplates.showsNames .outside afterWord' after = true ∧
      (afterWord' = true → after.head? ≠ some '_') := by
  have closed := h.closed
  have nonempty : chunk ≠ [] := by
    rintro rfl
    exact absurd h.length_pos (by simp)
  cases h with
  | @pair c d _ paired =>
      refine ⟨false, ?_, by simp⟩
      obtain ⟨e, f, same, -, second⟩ := eq_of_pairedSigns paired
      cases same
      have ends : EndsWord ([c] ++ [d]) := by
        simp only [List.mem_cons, List.not_mem_nil, or_false] at second
        rcases second with rfl | rfl | rfl <;> exact endsWord_sign (by decide) (by decide) _
      rw [← closed]
      exact showsNames_after shows (fun empty => absurd empty nonempty) ends
  | @sign c _ single =>
      refine ⟨false, ?_, by simp⟩
      have known := List.contains_iff_mem.mp single
      rw [← closed]
      exact showsNames_after shows (fun empty => absurd empty nonempty)
        (endsWord_sign (not_wordChar_of_mem_signs c known) (not_sigil_of_mem_signs c known) [])
  | @literal mark inside _ _ quote =>
      refine ⟨false, ?_, by simp⟩
      have ends : EndsWord (mark :: inside ++ [mark]) := by
        simp only [isQuote, Bool.or_eq_true, beq_iff_eq] at quote
        rcases quote with rfl | rfl <;> exact endsWord_sign (by decide) (by decide) _
      rw [← closed]
      exact showsNames_after shows (fun empty => absurd empty nonempty) ends
  | number _ _ _ ends =>
      refine ⟨true, ?_, fun _ => ends⟩
      rw [← closed]
      exact showsNames_drop shows
  | name _ _ ends =>
      refine ⟨true, ?_, fun _ underscore => ?_⟩
      · rw [← closed]
        exact showsNames_drop shows
      · rw [underscore] at ends
        cases ends

/-- In a text without names that begin with two underscores no token is such a name. -/
theorem not_isHidden_of_mem_tokensOf {text : List Char}
    (shows : showsNames .outside false text = true) {s : String} (hmem : name s ∈ tokensOf text) :
    ¬ IsHidden s := by
  have general : ∀ afterWord, showsNames .outside afterWord text = true →
      (afterWord = true → text.head? ≠ some '_') → ∀ s, name s ∈ tokensOf text → ¬ IsHidden s := by
    refine tokensOf_induction (P := fun text tokens => ∀ afterWord,
      showsNames .outside afterWord text = true → (afterWord = true → text.head? ≠ some '_') →
      ∀ s, name s ∈ tokens → ¬ IsHidden s) ?_ ?_ ?_ ?_ text
    · intro _ _ _ s hmem
      cases hmem
    · intro c rest blank ih afterWord shows starts s hmem
      simp only [showsNames, Bool.and_eq_true] at shows
      obtain ⟨noWord, -, -⟩ := Part.blank_noWord (Part.isBlank_of_isAsciiBlank blank)
      have step : Quotation.next .outside c = .outside := by
        simp [Quotation.next, (not_quote_of_blank (Part.isBlank_of_isAsciiBlank blank)).1]
      have rest := shows.2
      rw [noWord, Bool.and_false, step] at rest
      exact ih false rest (by simp) s hmem
    · intro c rest reason after _ _ _ _ _ s hmem
      cases List.mem_singleton.mp hmem
    · intro token chunk after chunked ih afterWord shows starts s hmem
      obtain ⟨afterWord', rest, starts'⟩ := chunked.showsNames shows
      rcases List.mem_cons.mp hmem with same | hmem
      · cases chunked with
        | @name c word _ start letters ends =>
            cases same
            rintro ⟨more, hidden⟩
            simp only [String.toList_ofList] at hidden
            simp only [showsNames, List.cons_append, Bool.and_eq_true, Bool.not_eq_true'] at shows
            have isPrefix : ['_', '_'].isPrefixOf (c :: (word ++ after)) = true := by
              rw [List.isPrefixOf_iff_prefix]
              exact ⟨more ++ after, by rw [← List.append_assoc, hidden, List.cons_append]⟩
            cases afterWord with
            | false => simp [isPrefix] at shows
            | true =>
                refine starts rfl ?_
                rw [List.cons_append, List.head?_cons]
                cases hidden
                rfl
        | _ => cases same
      · exact ih afterWord' rest starts' s hmem
  exact general false shows (by simp) s hmem

/-! ### Brackets -/

def isOpeningSign (s : String) : Bool :=
  s == "(" || s == "[" || s == "\x7b"

def isClosingSign (s : String) : Bool :=
  s == ")" || s == "]" || s == "\x7d"

/-- How many brackets are open after one more token, all kinds counting alike; none if it closes a
bracket that is not open or belongs to no expression. -/
def level? (depth : Nat) : Token → Option Nat
  | sign s =>
    if isOpeningSign s then some (depth + 1)
    else if isClosingSign s then
      match depth with
      | 0 => none
      | depth + 1 => some depth
    else some depth
  | name _ | literal _ | number _ => some depth
  | _ => none

def levels? (depth : Nat) : List Token → Option Nat
  | [] => some depth
  | token :: rest => (token.level? depth).bind fun depth => levels? depth rest

theorem levels?_append (depth : Nat) (first second : List Token) :
    levels? depth (first ++ second) =
      (levels? depth first).bind fun depth => levels? depth second := by
  induction first generalizing depth with
  | nil => rfl
  | cons token rest ih =>
      simp only [List.cons_append, levels?, Option.bind_assoc]
      congr
      funext depth
      exact ih depth

theorem levels?_under {depth depth' : Nat} {tokens : List Token}
    (h : levels? depth tokens = some depth') (outer : Nat) :
    levels? (depth + outer) tokens = some (depth' + outer) := by
  induction tokens generalizing depth with
  | nil =>
      cases h
      rfl
  | cons token rest ih =>
      obtain ⟨between, first, second⟩ := Option.bind_eq_some_iff.mp h
      have step : token.level? (depth + outer) = some (between + outer) := by
        cases token with
        | sign s =>
            simp only [level?] at first ⊢
            cases depth <;> grind
        | name | literal | number =>
            cases first
            rfl
        | _ => cases first
      simp only [levels?, step, Option.bind_some]
      exact ih second

theorem toString_beq (c d : Char) : (c.toString == d.toString) = (c == d) := by
  by_cases same : c = d
  · simp [same]
  · have other : c.toString ≠ d.toString := by
      intro h
      have := congrArg String.toList h
      simp only [Char.toString, String.toList_singleton, List.cons.injEq, and_true] at this
      exact same this
    rw [beq_false_of_ne other, beq_false_of_ne same]

theorem isOpeningSign_toString (c : Char) : isOpeningSign c.toString = isOpening c := by
  show (c.toString == '('.toString || c.toString == '['.toString ||
    c.toString == '\x7b'.toString) = _
  rw [toString_beq, toString_beq, toString_beq]
  rfl

theorem isClosingSign_toString (c : Char) : isClosingSign c.toString = isClosing c := by
  show (c.toString == ')'.toString || c.toString == ']'.toString ||
    c.toString == '\x7d'.toString) = _
  rw [toString_beq, toString_beq, toString_beq]
  rfl

theorem run?_neutral {text : List Char} (h : ∀ c ∈ text,
    isQuote c = false ∧ isOpening c = false ∧ isClosing c = false) (depth : Nat) :
    Nesting.run? { depth } text = some { depth } := by
  induction text with
  | nil => rfl
  | cons c rest ih =>
      obtain ⟨quote, opening, closing⟩ := h c List.mem_cons_self
      have step : Nesting.step? { depth } c = some { depth } := by
        simp [Nesting.step?, quote, opening, closing]
      simp only [Nesting.run?, step, Option.bind_some]
      exact ih fun d hd => h d (List.mem_cons_of_mem _ hd)

theorem run?_literal {mark : Char} (hmark : mark ≠ '\\') {chars inside after : List Char}
    (h : Literal.splitText mark chars = some (inside, after)) (depth : Nat) :
    Nesting.run? ⟨.inside mark false, depth⟩ (inside ++ [mark]) = some { depth } := by
  fun_induction Literal.splitText mark chars generalizing inside with
  | case1 => cases h
  | case2 c rest ih =>
      simp only [Option.map_eq_some_iff, Prod.exists, Prod.mk.injEq] at h
      obtain ⟨inside', after', found, rfl, rfl⟩ := h
      have tail := ih found
      exact tail
  | case3 c rest noEscape same =>
      cases h
      simp [Nesting.run?, Nesting.step?, Quotation.next, hmark]
  | case4 c rest noEscape other ih =>
      simp only [Option.map_eq_some_iff, Prod.exists, Prod.mk.injEq] at h
      obtain ⟨inside', after', found, rfl, rfl⟩ := h
      have plain : c ≠ '\\' := by
        rintro rfl
        cases rest with
        | nil => cases found
        | cons d rest => exact noEscape d rest rfl rfl
      have stays := Literal.next_plain plain (by simpa using other)
      have step : Nesting.step? ⟨.inside mark false, depth⟩ c =
          some ⟨.inside mark false, depth⟩ := by
        simp only [Nesting.step?, stays]
      simp only [List.cons_append, Nesting.run?, step, Option.bind_some]
      exact ih found

theorem numeric_neutral {c : Char} (h : Literal.isNumeric c = true) :
    isQuote c = false ∧ isOpening c = false ∧ isClosing c = false := by
  refine ⟨numeric_notQuote h, ?_, ?_⟩
  · rw [← Bool.not_eq_true]
    intro opening
    simp only [isOpening, Bool.or_eq_true, beq_iff_eq] at opening
    rcases opening with (rfl | rfl) | rfl <;> cases h
  · rw [← Bool.not_eq_true]
    intro closing
    simp only [isClosing, Bool.or_eq_true, beq_iff_eq] at closing
    rcases closing with (rfl | rfl) | rfl <;> cases h

theorem Chunk.run? {token : Token} {chunk after : List Char} (h : Chunk token chunk after)
    (depth : Nat) :
    Nesting.run? { depth } chunk = (token.level? depth).map fun depth => { depth } := by
  cases h with
  | @pair c d _ paired =>
      obtain ⟨e, f, same, first, second⟩ := eq_of_pairedSigns paired
      cases same
      simp only [List.mem_cons, List.not_mem_nil, or_false] at first second
      have neutral : ∀ x ∈ [c, d],
          isQuote x = false ∧ isOpening x = false ∧ isClosing x = false := by
        intro x hx
        simp only [List.mem_cons, List.not_mem_nil, or_false] at hx
        rcases hx with rfl | rfl
        · rcases first with rfl | rfl | rfl | rfl | rfl | rfl <;> decide
        · rcases second with rfl | rfl | rfl <;> decide
      rw [run?_neutral neutral]
      have noBracket : isOpeningSign (String.ofList [c, d]) = false ∧
          isClosingSign (String.ofList [c, d]) = false := by
        rcases first with rfl | rfl | rfl | rfl | rfl | rfl <;>
          rcases second with rfl | rfl | rfl <;> decide +kernel
      simp only [level?, noBracket, Bool.false_eq_true, if_false, Option.map_some]
  | @sign c _ single =>
      have quote := not_quote_of_mem_signs c (List.contains_iff_mem.mp single)
      simp only [Nesting.run?, Nesting.step?, quote, level?, isOpeningSign_toString,
        isClosingSign_toString]
      cases depth <;> grind
  | @literal mark inside _ _ quote split =>
      have noEscape : mark ≠ '\\' := by
        rintro rfl
        cases quote
      have opened : Nesting.step? { depth } mark = some ⟨.inside mark false, depth⟩ := by
        simp [Nesting.step?, quote]
      simp only [List.cons_append, Nesting.run?, opened, Option.bind_some]
      exact run?_literal noEscape split depth
  | number _ _ numeric =>
      exact run?_neutral (fun x hx => numeric_neutral (numeric x hx)) depth
  | @name c word _ start letters =>
      refine run?_neutral (fun x hx => numeric_neutral ?_) depth
      rcases List.mem_cons.mp hx with rfl | hx
      · simp [Literal.isNumeric, isWordStart_isWordChar start]
      · simp [Literal.isNumeric, letters x hx]

theorem levels?_tokensOf {text : List Char} (noFlaw : ∀ reason, flaw reason ∉ tokensOf text)
    {depth depth' : Nat} (h : Nesting.run? { depth } text = some { depth := depth' }) :
    levels? depth (tokensOf text) = some depth' := by
  revert noFlaw depth
  refine tokensOf_induction (P := fun text tokens => (∀ reason, flaw reason ∉ tokens) →
    ∀ depth, Nesting.run? { depth } text = some { depth := depth' } →
    levels? depth tokens = some depth') ?_ ?_ ?_ ?_ text
  · intro _ depth h
    cases h
    rfl
  · intro c rest blank ih noFlaw depth h
    have step : Nesting.run? { depth } [c] = some { depth } :=
      run?_blanks (by simpa using Part.isBlank_of_isAsciiBlank blank) depth
    have split := Nesting.run?_append { depth } [c] rest
    rw [step] at split
    exact ih noFlaw depth (split.symm.trans h)
  · intro c rest reason after _ _ noFlaw
    exact absurd (List.mem_singleton_self _) (noFlaw reason)
  · intro token chunk after chunked ih noFlaw depth h
    rw [Nesting.run?_append, chunked.run?] at h
    simp only [levels?]
    cases level : token.level? depth with
    | none =>
        rw [level] at h
        cases h
    | some depth =>
        rw [level] at h
        exact ih (fun reason hmem => noFlaw reason (List.mem_cons_of_mem _ hmem)) depth h

end Token

end ThemeTemplates
