import ThemeTemplates.Proofs.Page.Emission

/-!
# Text between directives

Text with comments and plain echoes in it, as authors write it between directives, leaves the open
blocks of a page alone.
-/

namespace ThemeTemplates

open Piece Parse

def isPlainChar (c : Char) : Bool :=
  !(c == '@' || isQuote c || c == '\x7b' || c == '\x7d')

/-- Text with comments and echoes. The echoes are free of directive marks, literals and records, and
show no name that begins with two underscores; there are no statements. -/
inductive PlainText : List Char → Prop
  | nil : PlainText []
  | char {c : Char} {rest : List Char}
    (plain : ∀ d, rest.head? = some d → Segment.opensTag c d = false) (h : PlainText rest) :
    PlainText (c :: rest)
  | comment {body tag rest : List Char}
    (ended : Segment.splitTagEnd '#' .outside body = some (tag, rest)) (h : PlainText rest) :
    PlainText ('\x7b' :: '#' :: body)
  | echo {expression rest : List Char} (plain : ∀ c ∈ expression, isPlainChar c = true)
    (shows : showsNames .outside false expression = true) (h : PlainText rest) :
    PlainText ('\x7b' :: '\x7b' :: (expression ++ '\x7d' :: '\x7d' :: rest))

namespace PlainText

variable {text body tag rest expression : List Char}

theorem plainChar_spec {c : Char} (h : isPlainChar c = true) :
    isQuote c = false ∧ c ≠ '\x7b' ∧ c ≠ '\x7d' := by
  simp only [isPlainChar, Bool.not_eq_true', Bool.or_eq_false_iff, beq_eq_false_iff_ne] at h
  exact ⟨h.1.1.2, h.1.2, h.2⟩

theorem splitTagEnd_append {kind : Char} {q : Quotation}
    (h : Segment.splitTagEnd kind q body = some (tag, rest)) : body = tag ++ rest := by
  fun_induction Segment.splitTagEnd kind q body generalizing tag with
  | case1 => cases h
  | case2 => cases h
  | case3 =>
      cases h
      rfl
  | case4 q c d following _ ih =>
      obtain ⟨⟨tag', rest'⟩, found, same⟩ := Option.map_eq_some_iff.mp h
      cases same
      rw [ih found, List.cons_append]

theorem splitTag_of_splitTagEnd {q : Quotation} (outside : q = .outside) (n : Nesting)
    (ended : Segment.splitTagEnd '#' q body = some (tag, rest)) (after : List Char) :
    ∃ inside, splitTag '#' n (body ++ after) = some (inside, rest ++ after) := by
  fun_induction Segment.splitTagEnd '#' q body generalizing n tag with
  | case1 => cases ended
  | case2 => cases ended
  | case3 q c d following closes =>
      cases ended
      simp only [Bool.and_eq_true, beq_iff_eq] at closes
      obtain ⟨⟨-, rfl⟩, rfl⟩ := closes
      exact ⟨[], by simp [splitTag]⟩
  | case4 q c d following goesOn ih =>
      subst outside
      obtain ⟨⟨tag', rest'⟩, found, same⟩ := Option.map_eq_some_iff.mp ended
      cases same
      obtain ⟨inside, later⟩ := ih rfl (n.next c) found
      refine ⟨c :: inside, ?_⟩
      simp only [beq_self_eq_true, Bool.true_and, Bool.and_eq_true, not_and] at goesOn
      rw [List.cons_append, List.cons_append, splitTag]
      rw [List.cons_append] at later
      rw [if_neg (by simpa using goesOn), later]
      rfl

/-! ### Echoes -/

theorem sign_mem_tokensOf {c : Char} (unpaired : ∀ chars, Token.pairedSigns.contains chars = true →
      String.ofList chars ≠ c.toString) (h : Token.sign c.toString ∈ Token.tokensOf text) :
    c ∈ text := by
  revert h
  refine Token.tokensOf_induction (P := fun text tokens => Token.sign c.toString ∈ tokens →
    c ∈ text)
    ?_ ?_ ?_ ?_ text
  · exact fun h => absurd h List.not_mem_nil
  · exact fun _ _ _ ih h => List.mem_cons_of_mem _ (ih h)
  · intro _ _ _ _ _ _ h
    cases List.mem_singleton.mp h
  · intro token chunk after chunked ih h
    rcases List.mem_cons.mp h with same | h
    · refine List.mem_append_left _ ?_
      cases chunked with
      | pair paired =>
          rw [Token.sign.injEq] at same
          exact absurd same.symm (unpaired _ paired)
      | sign single alone =>
          rw [Token.sign.injEq] at same
          have equal : (c.toString == _) = true := beq_iff_eq.mpr same
          rw [Token.toString_beq, beq_iff_eq] at equal
          rw [equal]
          exact List.mem_singleton_self _
      | literal | number | name => cases same
    · exact List.mem_append_right _ (ih h)

theorem brace_mem_of_tokensOf (h : Token.sign "\x7b" ∈ Token.tokensOf text) : '\x7b' ∈ text := by
  refine sign_mem_tokensOf (c := '\x7b') ?_ h
  intro chars paired
  obtain ⟨c, d, rfl, -, -⟩ := Token.eq_of_pairedSigns paired
  intro same
  have characters : [c, d] = ['\x7b'] := by
    rw [← String.toList_ofList (l := [c, d]), same]
    rfl
  cases characters

theorem noBrace_of_brackets? {pending after : List String} {tokens : List Token}
    (h : Token.brackets? pending tokens = some after) (noBrace : Token.sign "\x7b" ∉ tokens)
    (noPending : "\x7d" ∉ pending) : "\x7d" ∉ after := by
  induction tokens generalizing pending with
  | nil =>
      cases h
      exact noPending
  | cons token tokens ih =>
      obtain ⟨between, first, second⟩ := Option.bind_eq_some_iff.mp h
      rw [List.mem_cons, not_or] at noBrace
      refine ih second noBrace.2 ?_
      cases token with
      | sign s =>
          have other : s ≠ "\x7b" := fun same => noBrace.1 (by rw [same])
          simp only [Token.bracket?] at first
          cases pending <;> grind
      | name | literal | number =>
          cases first
          exact noPending
      | _ => cases first

theorem delimits_closingBrace (rest : List Char) : Delimits ('\x7d' :: rest) :=
  Delimits.cons rest (by decide) (by decide)

theorem not_expressible_closingBrace (closed : Quotation.after .outside text = .outside)
    (noBrace : '\x7b' ∉ text) (more : List Char) :
    ¬ Expressible (Token.tokensOf (text ++ '\x7d' :: more)) := by
  rcases Token.tokensOf_append closed (delimits_closingBrace more)
    with ⟨reason, flaw, same⟩ | ⟨-, same⟩
  · rw [same]
    exact not_expressible_of_flaw flaw
  · rw [same, Token.tokensOf_sign rfl (by decide)]
    intro expressible
    have brackets := expressible.brackets?
    rw [Token.brackets?_append] at brackets
    obtain ⟨pending, first, second⟩ := Option.bind_eq_some_iff.mp brackets
    obtain ⟨after, closing, -⟩ := Option.bind_eq_some_iff.mp second
    have noPending : "\x7d" ∉ pending :=
      noBrace_of_brackets? first (fun h => noBrace (brace_mem_of_tokensOf h)) List.not_mem_nil
    cases pending with
    | nil => cases closing
    | cons close pending =>
        have other : "\x7d" ≠ close := fun same => noPending (by simp [same])
        have noClosing : Token.bracket? (close :: pending) (.sign "\x7d") = none := by
          simp [Token.bracket?, Token.isClosingSign, other]
        cases closing.symm.trans noClosing

theorem splitOpeningSign_append_brace (text : List Char) :
    (splitOpeningSign (text ++ ['\x7d'])).2 = (splitOpeningSign text).2 ++ ['\x7d'] := by
  cases text with
  | nil => rfl
  | cons c text =>
      by_cases sign : c ∈ ['-', '+']
      · simp only [List.mem_cons, List.not_mem_nil, or_false] at sign
        rcases sign with rfl | rfl <;> rfl
      · rw [List.cons_append, splitOpeningSign_cons sign, splitOpeningSign_cons sign]
        rfl

theorem splitOpeningSign_suffix (text : List Char) : (splitOpeningSign text).2 <:+ text := by
  unfold splitOpeningSign
  split
  · exact List.suffix_cons _ _
  · exact List.suffix_cons _ _
  · exact List.suffix_refl _

theorem showsNames_splitOpeningSign (shows : showsNames .outside false text = true) :
    showsNames .outside false (splitOpeningSign text).2 = true := by
  unfold splitOpeningSign
  split
  · exact (Bool.and_eq_true_iff.mp shows).2
  · exact (Bool.and_eq_true_iff.mp shows).2
  · exact shows

theorem showsNames_trimming (kind : Char) (shows : showsNames .outside false text = true) :
    showsNames .outside false (Trimming.of kind text).inside = true := by
  have opened := showsNames_splitOpeningSign shows
  unfold Trimming.of
  generalize splitOpeningSign text = signed at opened ⊢
  obtain ⟨before, inside⟩ := signed
  have dropped : ∀ c rest, inside.reverse = c :: rest →
      showsNames .outside false rest.reverse = true := by
    intro c rest reversed
    have whole : inside = rest.reverse ++ [c] := by
      rw [← List.reverse_cons, ← reversed, List.reverse_reverse]
    rw [whole] at opened
    exact showsNames_of_append opened
  simp only
  split
  · next reversed => exact dropped _ _ reversed
  · next reversed =>
      split
      · exact opened
      · exact dropped _ _ reversed
  · exact opened

/-- A plain echo ends where its author ended it, or nothing can be read in it. -/
theorem nests_echo {opened : List OpenTag} (plain : ∀ c ∈ expression, isPlainChar c = true)
    (shows : showsNames .outside false expression = true) (h : Nests OfLoops opened rest) :
    Nests OfLoops opened ('\x7b' :: '\x7b' :: (expression ++ '\x7d' :: '\x7d' :: rest)) := by
  have passes : Passes '\x7b' {} expression :=
    Passes.of_noMark fun c hmem => (plainChar_spec (plain c hmem)).2.2
  have closed : ∀ part, part <:+ expression → Quotation.after .outside part = .outside :=
    fun part suffix => Token.after_outside_of_noQuote fun c hmem =>
      (plainChar_spec (plain c (suffix.subset hmem))).1
  by_cases top : (Nesting.after {} expression).atTop = true
  · have split := passes.splitTag_append ('\x7d' :: '\x7d' :: rest)
    have ended : splitTag '\x7b' (Nesting.after {} expression) ('\x7d' :: '\x7d' :: rest) =
        some ([], rest) := by
      simp [splitTag, top, Segment.closingMark]
    rw [ended] at split
    refine Nests.echo split (fun _ s hmem loops => ?_) fun _ => h
    simp only [List.append_nil] at hmem
    exact Token.not_isHidden_of_mem_tokensOf (showsNames_trimming _ shows) hmem loops.isHidden
  · have goesOn : Passes '\x7b' {} (expression ++ ['\x7d']) := by
      refine Passes.append passes ⟨?_, trivial⟩
      simp [Bool.eq_false_iff.mpr top]
    have spoils : Spoils (expression ++ ['\x7d']) := by
      refine ⟨goesOn, by simp, ?_, fun more => ?_⟩
      · rw [splitOpeningSign_append_brace]
        simp
      · have suffix := splitOpeningSign_suffix expression
        rw [splitOpeningSign_append_brace, List.append_assoc]
        refine not_expressible_closingBrace (closed _ suffix) (fun hmem => ?_) more
        exact (plainChar_spec (plain _ (suffix.subset hmem))).2.1 rfl
    have spoiled := spoils.nests opened ('\x7d' :: rest)
    rwa [List.append_assoc] at spoiled

/-! ### The whole text -/

theorem getLast?_append_of_some (first : List Char) {second : List Char} {c : Char}
    (h : second.getLast? = some c) : (first ++ second).getLast? = some c := by
  rw [List.getLast?_append, h]
  rfl

/-- Plain text in front of a page that nests. An opening brace at its end stands for itself. -/
theorem nests {opened : List OpenTag} {after : List Char} (h : PlainText text)
    (joins : text.getLast? = some '\x7b' → Nests OfLoops opened ('\x7b' :: after))
    (later : Nests OfLoops opened after) : Nests OfLoops opened (text ++ after) := by
  induction h with
  | nil => exact later
  | @char c rest plain _ ih =>
      cases rest with
      | nil =>
          by_cases brace : c = '\x7b'
          · subst brace
            exact joins rfl
          · refine Nests.char (fun d _ => ?_) later
            simp [Segment.opensTag, brace]
      | cons d rest => exact Nests.char (fun e he => plain e he) (ih joins)
  | @comment body tag rest ended _ ih =>
      obtain ⟨inside, closes⟩ := splitTag_of_splitTagEnd rfl {} ended after
      refine Nests.comment closes (ih fun last => joins ?_)
      rw [splitTagEnd_append ended]
      exact getLast?_append_of_some ('\x7b' :: '#' :: tag) last
  | @echo expression rest plain shows _ ih =>
      have inside := nests_echo plain shows (ih fun last => joins ?_)
      · simpa using inside
      · have whole : '\x7b' :: '\x7b' :: (expression ++ '\x7d' :: '\x7d' :: rest) =
            ('\x7b' :: '\x7b' :: (expression ++ ['\x7d', '\x7d'])) ++ rest := by simp
        rw [whole]
        exact getLast?_append_of_some _ last

end PlainText

end ThemeTemplates
