import ThemeTemplates.Proofs.Text.Settled

/-!
# Brackets of equal kinds

A text is balanced if each bracket outside its literals is closed by one of its own kind. Balanced
texts are contained. The converse fails: a reader that counts brackets takes any closing bracket for
the one that closes the innermost open one, so it may end a list too early.
-/

namespace ThemeTemplates

/-- An opening bracket and the closing one of its kind. -/
inductive Pairs : Char → Char → Prop
  | round : Pairs '(' ')'
  | square : Pairs '[' ']'
  | curly : Pairs '{' '}'

/-- A text whose brackets outside literals nest with equal kinds. -/
inductive Balanced : List Char → Prop
  | nil : Balanced []
  | char {c : Char} {rest : List Char} (noQuote : isQuote c = false)
      (noOpening : isOpening c = false)
    (noClosing : isClosing c = false) (h : Balanced rest) : Balanced (c :: rest)
  | literal {mark : Char} {inside rest : List Char} (quote : isQuote mark = true)
    (quoted : Quoted mark inside) (h : Balanced rest) : Balanced (mark :: (inside ++ mark :: rest))
  | brackets {opening closing : Char} {inside rest : List Char} (pair : Pairs opening closing)
    (hinside : Balanced inside) (hrest : Balanced rest) :
    Balanced (opening :: (inside ++ closing :: rest))

/-- A parenthesis, a balanced text and a closing parenthesis. -/
def Enclosed (list inner : List Char) : Prop :=
  list = '(' :: (inner ++ [')']) ∧ Balanced inner

/-! ### Balanced texts are contained -/

theorem Pairs.isOpening {opening closing : Char} (pair : Pairs opening closing) :
    isOpening opening = true := by
  cases pair <;> rfl

theorem Pairs.isClosing {opening closing : Char} (pair : Pairs opening closing) :
    isClosing closing = true := by
  cases pair <;> rfl

theorem Balanced.settled {text : List Char} (h : Balanced text) : Settled false text := by
  induction h with
  | nil => exact .nil
  | char noQuote noOpening noClosing _ ih =>
      refine .char noQuote noOpening (fun closing => ?_) ih
      rw [noClosing] at closing
      cases closing
  | literal quote quoted _ ih => exact .literal quote quoted ih
  | brackets pair _ _ ihInside ihRest =>
      exact .brackets pair.isOpening pair.isClosing ihInside ihRest

theorem Balanced.contained {text : List Char} (h : Balanced text) : Contained text :=
  h.settled.contained

theorem Enclosed.counted {list inner : List Char} (h : Enclosed list inner) : Counted list inner :=
  ⟨')', h.1, rfl, h.2.contained⟩

/-! ### Balanced texts taken apart -/

theorem Balanced.of_opening {c : Char} {text : List Char} (h : Balanced (c :: text))
    (opening : isOpening c = true) : ∃ inside closing rest, text = inside ++ closing :: rest ∧
      Pairs c closing ∧ Balanced inside ∧ Balanced rest := by
  generalize same : c :: text = whole at h
  cases h with
  | nil => cases same
  | char _ noOpening =>
      cases same
      rw [opening] at noOpening
      cases noOpening
  | @literal mark _ _ quote =>
      cases same
      simp only [isQuote, Bool.or_eq_true, beq_iff_eq] at quote
      rcases quote with rfl | rfl <;> cases opening
  | @brackets _ closing inside rest pair hinside hrest =>
      cases same
      exact ⟨inside, closing, rest, rfl, pair, hinside, hrest⟩

/-- Of a balanced text that is one list, the brackets at both ends are parentheses. -/
theorem Balanced.enclosed {list inner : List Char} (h : Balanced list)
    (counted : Counted list inner) :
    Enclosed list inner := by
  have ⟨close, whole, _⟩ := counted
  subst whole
  obtain ⟨inside, closing, rest, same, pair, hinside, -⟩ := h.of_opening rfl
  cases pair
  have enclosed : Enclosed ('(' :: (inside ++ [')'])) inside := ⟨rfl, hinside⟩
  have cut : '(' :: (inner ++ [close]) ++ [] = '(' :: (inside ++ [')']) ++ rest := by simp [same]
  obtain ⟨list, rfl⟩ := counted.unique enclosed.counted cut
  exact ⟨list, hinside⟩

theorem Balanced.of_blank {c : Char} {text : List Char} (h : Balanced (c :: text))
    (blank : isBlank c = true) : Balanced text := by
  obtain ⟨noQuote, noOpening, -⟩ := not_quote_of_blank blank
  generalize same : c :: text = whole at h
  cases h with
  | nil => cases same
  | char _ _ _ h =>
      cases same
      exact h
  | literal quote =>
      cases same
      rw [noQuote] at quote
      cases quote
  | brackets pair =>
      cases same
      cases pair <;> cases noOpening

theorem Balanced.of_blanks_append {before text : List Char} (blank : ∀ c ∈ before, isBlank c = true)
    (h : Balanced (before ++ text)) : Balanced text := by
  induction before with
  | nil => exact h
  | cons c before ih =>
      obtain ⟨first, later⟩ := List.forall_mem_cons.mp blank
      exact ih later (Balanced.of_blank h first)

/-- The last character of a text stands behind any other character that is named in it. -/
theorem eq_append_of_concat {text front rest : List Char} {c d : Char} (other : d ≠ c)
    (same : text ++ [c] = front ++ d :: rest) :
    ∃ rest', rest = rest' ++ [c] ∧ text = front ++ d :: rest' := by
  cases rest using List.reverseRecOn with
  | nil => exact absurd (List.append_inj' same rfl).2 (by simpa using other.symm)
  | append_singleton rest' last =>
      rw [← List.cons_append, ← List.append_assoc] at same
      obtain ⟨cut, ends⟩ := List.append_inj' same rfl
      cases ends
      exact ⟨rest', rfl, cut⟩

theorem Balanced.of_append_blank {text : List Char} {c : Char} (blank : isBlank c = true)
    (h : Balanced (text ++ [c])) : Balanced text := by
  obtain ⟨noQuote, -, noClosing⟩ := not_quote_of_blank blank
  generalize same : text ++ [c] = whole at h
  induction h generalizing text with
  | nil => simp at same
  | char quote opening closing h ih =>
      cases text with
      | nil => exact .nil
      | cons d text =>
          cases same
          exact .char quote opening closing (ih rfl)
  | @literal mark inside _ quote quoted h ih =>
      have other : mark ≠ c := by
        rintro rfl
        rw [quote] at noQuote
        cases noQuote
      rw [← List.cons_append] at same
      obtain ⟨rest, rfl, rfl⟩ := eq_append_of_concat other same
      exact .literal quote quoted (ih rfl)
  | @brackets opening closing inside _ pair hinside _ _ ih =>
      have other : closing ≠ c := by
        rintro rfl
        rw [pair.isClosing] at noClosing
        cases noClosing
      rw [← List.cons_append] at same
      obtain ⟨rest, rfl, rfl⟩ := eq_append_of_concat other same
      exact .brackets pair hinside (ih rfl)

theorem Balanced.of_append_blanks {text after : List Char} (blank : ∀ c ∈ after, isBlank c = true)
    (h : Balanced (text ++ after)) : Balanced text := by
  induction after using List.reverseRecOn with
  | nil => simpa using h
  | append_singleton after c ih =>
      rw [← List.append_assoc] at h
      exact ih (fun d hmem => blank d (by simp [hmem]))
        (Balanced.of_append_blank (blank c (by simp)) h)

protected theorem Balanced.trim {text : List Char} (h : Balanced text) : Balanced (trim text) := by
  obtain ⟨before, after, whole, blankBefore, blankAfter⟩ := trim_spec text
  rw [whole, List.append_assoc] at h
  exact Balanced.of_append_blanks blankAfter (Balanced.of_blanks_append blankBefore h)

/-! ### Taking parentheses off -/

/-- What may be left of a text after blanks at its ends and layers around it are taken off; `layer`
tells what is a layer and what stands inside. -/
inductive Peels (layer : List Char → List Char → Prop) : List Char → List Char → Prop
  | nothing (text : List Char) : Peels layer text text
  | blanks {before text after left : List Char} (blankBefore : ∀ c ∈ before, isBlank c = true)
    (blankAfter : ∀ c ∈ after, isBlank c = true) (h : Peels layer text left) :
    Peels layer (before ++ text ++ after) left
  | once {text inner left : List Char} (outer : layer text inner) (h : Peels layer inner left) :
    Peels layer text left

theorem trim_blanks_append {before : List Char} (blank : ∀ c ∈ before, isBlank c = true)
    (text : List Char) : trim (before ++ text) = trim text := by
  rw [trim, stripEnds, List.dropWhile_append_of_pos blank]
  rfl

theorem trim_append_blanks {after : List Char} (blank : ∀ c ∈ after, isBlank c = true)
    (text : List Char) : trim (text ++ after) = trim text := by
  have nothing : after.dropWhile isBlank = [] := List.dropWhile_eq_nil_iff.mpr blank
  have reversed : ∀ c ∈ after.reverse, isBlank c = true :=
    fun c hmem => blank c (List.mem_reverse.mp hmem)
  rw [trim, stripEnds, List.dropWhile_append]
  split
  · next empty =>
      rw [List.isEmpty_iff] at empty
      rw [trim, stripEnds, empty, nothing]
  · rw [List.reverse_append, List.dropWhile_append_of_pos reversed]
    rfl

theorem trim_trim (text : List Char) : trim (trim text) = trim text := by
  obtain ⟨before, after, whole, blankBefore, blankAfter⟩ := trim_spec text
  conv_rhs => rw [whole, trim_append_blanks blankAfter, trim_blanks_append blankBefore]

theorem trim_unwrap (text : List Char) : trim (unwrap text) = unwrap text := by
  induction text using unwrap.induct with
  | case1 text inner found ih => rw [unwrap_of_some found, ih]
  | case2 text missing => rw [unwrap_of_none missing, trim_trim]

theorem Counted.trim_eq {list inner : List Char} (h : Counted list inner) : trim list = list := by
  obtain ⟨close, rfl, closing, -⟩ := h
  have visible : isBlank close = false := by
    rw [← Bool.not_eq_true]
    intro blank
    rw [(not_quote_of_blank blank).2.2] at closing
    cases closing
  simp [trim, stripEnds, visible, (by decide : isBlank '(' = false)]

theorem peels_trim {layer : List Char → List Char → Prop} {text left : List Char}
    (h : Peels layer (trim text) left) : Peels layer text left := by
  obtain ⟨before, after, whole, blankBefore, blankAfter⟩ := trim_spec text
  rw [whole]
  exact .blanks blankBefore blankAfter h

theorem peels_unwrap (text : List Char) : Peels Counted text (unwrap text) := by
  induction text using unwrap.induct with
  | case1 text inner found ih =>
      rw [unwrap_of_some found]
      exact peels_trim (.once (unwrapOnce_eq_some_iff.mp found) ih)
  | case2 text missing =>
      rw [unwrap_of_none missing]
      exact peels_trim (.nothing _)

theorem Balanced.peels_unwrap {text : List Char} (h : Balanced text) :
    Peels Enclosed text (unwrap text) := by
  induction text using unwrap.induct with
  | case1 text inner found ih =>
      have enclosed := h.trim.enclosed (unwrapOnce_eq_some_iff.mp found)
      rw [unwrap_of_some found]
      exact peels_trim (.once enclosed (ih enclosed.2))
  | case2 text missing =>
      rw [unwrap_of_none missing]
      exact peels_trim (.nothing _)

/-- Either blanks alone are taken off, or there is a layer right inside them. -/
theorem Peels.cases_first {text left : List Char} (h : Peels Enclosed text left) :
    trim left = trim text ∨ ∃ inner, Enclosed (trim text) inner := by
  induction h with
  | nothing => exact .inl rfl
  | blanks blankBefore blankAfter _ ih =>
      rwa [trim_append_blanks blankAfter, trim_blanks_append blankBefore]
  | once outer => exact .inr ⟨_, outer.counted.trim_eq.symm ▸ outer⟩

/-- Nothing but blanks and pairs of parentheses is taken off if and only if nothing but blanks is,
or the outermost layer is a balanced text between parentheses. -/
theorem peels_unwrap_iff (text : List Char) : Peels Enclosed text (unwrap text) ↔
    unwrap text = trim text ∨ ∃ inner, Enclosed (trim text) inner := by
  constructor
  · intro h
    have first := h.cases_first
    rwa [trim_unwrap] at first
  · rintro (same | ⟨inner, outer⟩)
    · rw [same]
      exact peels_trim (.nothing _)
    · have found := unwrapOnce_eq_some_iff.mpr outer.counted
      rw [unwrap_of_some found]
      exact peels_trim (.once outer outer.2.peels_unwrap)

end ThemeTemplates
