import Mathlib.Data.List.Induction
import ThemeTemplates.Proofs.Text.Balance

/-!
# Parts of directive arguments

What a directive cuts out of its arguments is a part of them: contained, outside their literals, and
not cut through a word. A text without names that begin with two underscores has no part with such
names, also after the sigils are dropped.
-/

namespace ThemeTemplates

/-- Whether no name that begins with two underscores stands outside the literals of a text;
`afterWord` when the text goes on after a character of a word. -/
def showsNames (q : Quotation) (afterWord : Bool) : List Char → Bool
  | [] => true
  | c :: rest =>
    !(q == .outside && !afterWord && ['_', '_'].isPrefixOf (c :: rest)) &&
      showsNames (q.next c) (q == .outside && isWordChar c) rest

theorem showsNames_of_append {q : Quotation} {afterWord : Bool} {first second : List Char}
    (h : showsNames q afterWord (first ++ second) = true) :
      showsNames q afterWord first = true := by
  induction first generalizing q afterWord with
  | nil => rfl
  | cons c rest ih =>
      simp only [List.cons_append, showsNames, Bool.and_eq_true, Bool.not_eq_true',
        Bool.and_eq_false_iff] at h ⊢
      refine ⟨?_, ih h.2⟩
      rcases h.1 with h | h
      · exact .inl h
      · right
        cases rest with
        | nil => simp [List.isPrefixOf]
        | cons d rest => simpa only [List.cons_append, List.isPrefixOf] using h

def EndsWord (text : List Char) : Prop :=
  ∀ c, text.getLast? = some c → isWordChar c = false ∧ c ≠ '$'

theorem EndsWord.tail {c d : Char} {rest : List Char} (h : EndsWord (c :: d :: rest)) :
    EndsWord (d :: rest) :=
  fun last hlast => h last (by rwa [List.getLast?_cons_cons])

theorem showsNames_after {q : Quotation} {afterWord : Bool} {first second : List Char}
    (h : showsNames q afterWord (first ++ second) = true) (started : first = [] → afterWord = false)
    (ends : EndsWord first) : showsNames (q.after first) false second = true := by
  induction first generalizing q afterWord with
  | nil => exact started rfl ▸ h
  | cons c rest ih =>
      simp only [List.cons_append, showsNames, Bool.and_eq_true] at h
      cases rest with
      | nil =>
          have last := (ends c rfl).1
          rw [last, Bool.and_false] at h
          exact h.2
      | cons d rest => exact ih h.2 (fun empty => nomatch empty) ends.tail

theorem dropSigils_of_noSigil {text : List Char} (noSigil : '$' ∉ text) (q : Quotation) :
    dropSigils q text = text := by
  induction text generalizing q with
  | nil => rfl
  | cons c text ih =>
      obtain ⟨other, rest⟩ := not_or.mp (List.mem_cons.not.mp noSigil)
      simp [dropSigils, Ne.symm other, ih rest]

theorem dropSigils_append {q : Quotation} {first second : List Char}
    (separate : first.getLast? = some '$' → second.head?.any isWordStart = false) :
    dropSigils q (first ++ second) = dropSigils q first ++ dropSigils (q.after first) second := by
  induction first generalizing q with
  | nil => rfl
  | cons c rest ih =>
      have tail : dropSigils (q.next c) (rest ++ second) =
          dropSigils (q.next c) rest ++ dropSigils (q.after (c :: rest)) second := by
        refine ih fun last => separate ?_
        cases rest with
        | nil => cases last
        | cons d rest => rwa [List.getLast?_cons_cons]
      simp only [List.cons_append, dropSigils]
      have ahead : (q == .outside && c == '$' && (rest ++ second).head?.any isWordStart) =
          (q == .outside && c == '$' && rest.head?.any isWordStart) := by
        cases rest with
        | cons d rest => rfl
        | nil =>
            by_cases sigil : c = '$'
            · subst sigil
              simp [separate rfl]
            · simp [sigil]
      rw [ahead]
      split
      · next dropped =>
          simp only [Bool.and_eq_true, beq_iff_eq] at dropped
          obtain ⟨⟨rfl, rfl⟩, _⟩ := dropped
          exact tail
      · rw [tail, List.cons_append]

theorem after_dropSigils (q : Quotation) (text : List Char) :
    q.after (dropSigils q text) = q.after text := by
  induction text generalizing q with
  | nil => rfl
  | cons c rest ih =>
      simp only [dropSigils]
      split
      · next dropped =>
          simp only [Bool.and_eq_true, beq_iff_eq] at dropped
          obtain ⟨⟨rfl, rfl⟩, _⟩ := dropped
          exact ih .outside
      · exact ih (q.next c)

theorem Nesting.next_sigil {n : Nesting} (outside : n.quotation = .outside) : n.next '$' = n := by
  obtain ⟨q, depth⟩ := n
  cases outside
  rfl

theorem run?_dropSigils (n : Nesting) (text : List Char) :
    n.run? (dropSigils n.quotation text) = n.run? text := by
  induction text generalizing n with
  | nil => rfl
  | cons c rest ih =>
      simp only [dropSigils]
      split
      · next dropped =>
          simp only [Bool.and_eq_true, beq_iff_eq] at dropped
          obtain ⟨⟨outside, rfl⟩, _⟩ := dropped
          obtain ⟨q, depth⟩ := n
          simp only at outside
          subst outside
          exact ih ⟨.outside, depth⟩
      · simp only [Nesting.run?]
        cases step : n.step? c with
        | none => rfl
        | some m =>
            have same : m.quotation = n.quotation.next c := by
              rw [← Nesting.next_of_step? step, Nesting.quotation_next]
            rw [← same]
            exact ih m

theorem Contained.pageExpression {text : List Char} (h : Contained text) :
    Contained (pageExpression text) :=
  (run?_dropSigils {} text).trans h

theorem EndsWord.dropSigils {text : List Char} (h : EndsWord text) (q : Quotation) :
    EndsWord (dropSigils q text) := by
  cases text using List.reverseRecOn with
  | nil => exact h
  | append_singleton start c =>
      obtain ⟨noWord, noSigil⟩ := h c (by simp)
      have noStart : [c].head?.any isWordStart = false := by
        rw [← Bool.not_eq_true]
        intro start
        rw [isWordStart_isWordChar (by simpa using start)] at noWord
        cases noWord
      rw [dropSigils_append fun _ => noStart]
      intro last hlast
      have same : c = last := by
        simpa [ThemeTemplates.dropSigils] using hlast
      exact same ▸ ⟨noWord, noSigil⟩

/-- A contained stretch of a text that is not cut through a literal or a word. -/
structure Part (part whole : List Char) : Prop where
  contained : Contained part
  around : ∃ before after, whole = before ++ part ++ after ∧
    Quotation.after .outside before = .outside ∧ EndsWord before ∧
    after.head?.any isWordStart = false

namespace Part

variable {part whole : List Char}

theorem refl (h : Contained whole) : Part whole whole :=
  ⟨h, [], [], by simp, rfl, (fun _ last => by cases last), rfl⟩

theorem endsWord_append {first second : List Char} (hfirst : EndsWord first)
    (hsecond : EndsWord second) : EndsWord (first ++ second) := by
  intro c last
  cases second with
  | nil => exact hfirst c (by simpa using last)
  | cons d rest => exact hsecond c (by simpa using last)

theorem narrow (before after : List Char) {inner : List Char} (h : Part part whole)
    (contained : Contained inner) (whole' : part = before ++ inner ++ after)
    (outside : Quotation.after .outside before = .outside) (ends : EndsWord before)
    (starts : after = [] ∨ after.head?.any isWordStart = false) : Part inner whole := by
  obtain ⟨front, back, rfl, outsideFront, endsFront, startsBack⟩ := h.around
  subst whole'
  refine ⟨contained, front ++ before, after ++ back, by
    simp, ?_, endsWord_append endsFront ends, ?_⟩
  · rw [Quotation.after, List.foldl_append]
    exact (congrArg (fun q => Quotation.after q before) outsideFront).trans outside
  · cases after with
    | nil => exact startsBack
    | cons c rest => exact starts.resolve_left (by simp)

theorem showsNames_pageExpression (h : Part part whole)
    (shows : showsNames .outside false (pageExpression whole) = true) :
    showsNames .outside false (pageExpression part) = true := by
  obtain ⟨before, after, rfl, outside, ends, starts⟩ := h.around
  unfold pageExpression at shows ⊢
  rw [List.append_assoc, dropSigils_append fun last => absurd rfl (ends _ last).2, outside,
    dropSigils_append fun _ => starts] at shows
  have rest := showsNames_after shows (fun _ => rfl) (ends.dropSigils _)
  rw [after_dropSigils, outside] at rest
  exact showsNames_of_append rest

theorem blank_noWord {c : Char} (h : isBlank c = true) :
    isWordChar c = false ∧ isWordStart c = false ∧ c ≠ '$' := by
  have noWord : isWordChar c = false := by
    rw [← Bool.not_eq_true]
    intro word
    simp only [isWordChar, Char.isAlphanum, isAlpha_eq, isUpper_eq, isLower_eq,
      Char.isDigit, isBlank, blankRanges, List.any_cons, List.any_nil, Bool.or_eq_true,
      Bool.and_eq_true, decide_eq_true_eq, beq_iff_eq, Char.toNat] at word h
    rcases word with ((⟨_, _⟩ | ⟨_, _⟩) | ⟨_, _⟩) | rfl
    all_goals
      first
      | simp_all [UInt32.le_iff_toNat_le]; omega
      | simp at h
  refine ⟨noWord, ?_, ?_⟩
  · rw [← Bool.not_eq_true]
    intro start
    rw [isWordStart_isWordChar start] at noWord
    cases noWord
  · rintro rfl
    simp [isBlank, blankRanges] at h

theorem endsWord_blanks {text : List Char} (h : ∀ c ∈ text, isBlank c = true) : EndsWord text := by
  intro c last
  have blank := blank_noWord (h c (List.mem_of_getLast? last))
  exact ⟨blank.1, blank.2.2⟩

theorem startsBlank {text : List Char} (h : ∀ c ∈ text, isBlank c = true) :
    text = [] ∨ text.head?.any isWordStart = false := by
  cases text with
  | nil => exact .inl rfl
  | cons c rest => exact .inr (blank_noWord (h c List.mem_cons_self)).2.1

theorem outside_after_blanks {text : List Char} (h : ∀ c ∈ text, isBlank c = true) :
    Quotation.after .outside text = .outside := by
  have top := Nesting.after_of_run? (run?_blanks h 0)
  have := Nesting.quotation_after {} text
  rw [top] at this
  exact this.symm

protected theorem trim (h : Part part whole) : Part (trim part) whole := by
  obtain ⟨before, after, cut, blankBefore, blankAfter⟩ := trim_spec part
  exact h.narrow before after h.contained.trim cut (outside_after_blanks blankBefore)
    (endsWord_blanks blankBefore) (startsBlank blankAfter)

theorem of_unwrapOnce {inner : List Char} (h : Part part whole)
    (found : unwrapOnce part = some inner) :
    Part inner whole := by
  obtain ⟨close, rfl, closing, contained⟩ := unwrapOnce_eq_some_iff.mp found
  refine h.narrow ['('] [close] contained rfl rfl ?_ ?_
  · intro c last
    cases last
    decide
  · right
    simp only [isClosing, Bool.or_eq_true, beq_iff_eq] at closing
    rcases closing with (rfl | rfl) | rfl <;> decide

protected theorem unwrap (h : Part part whole) : Part (unwrap part) whole := by
  induction part using unwrap.induct with
  | case1 text inner found ih =>
      rw [unwrap_of_some found]
      exact ih (h.trim.of_unwrapOnce found)
  | case2 text missing =>
      rw [unwrap_of_none missing]
      exact h.trim

theorem eq_of_atTop {n : Nesting} (h : n.atTop = true) : n = {} := by
  simp only [Nesting.atTop, Bool.and_eq_true, beq_iff_eq] at h
  cases n
  simp only at h
  rw [h.1, h.2]

theorem splitAs_spec {n : Nesting} {before : Option Char} {text source binding : List Char}
    (h : Iteration.splitAs n before text = some (source, binding)) :
    text = source ++ 'a' :: 's' :: binding ∧ (n.after source).atTop = true ∧
      (source.getLast?.or before).any isAsciiBlank = true := by
  induction text generalizing n before source with
  | nil => cases h
  | cons c rest ih =>
      simp only [Iteration.splitAs] at h
      split at h
      · next source' binding' later =>
          cases h
          obtain ⟨cut, top, blank⟩ := ih later
          refine ⟨by rw [cut, List.cons_append], top, ?_⟩
          cases source' with
          | nil => simpa using blank
          | cons d more => rwa [List.getLast?_cons_cons]
      · split at h
        · next blank after =>
            split at h
            · next here =>
                cases h
                simp only [Bool.and_eq_true, beq_iff_eq] at here
                obtain ⟨⟨⟨rfl, top⟩, blankBefore⟩, _⟩ := here
                exact ⟨rfl, top, by simpa using blankBefore⟩
            · cases h
        · cases h

theorem splitAs_blank {n : Nesting} {before : Option Char} {text source binding : List Char}
    (h : Iteration.splitAs n before text = some (source, binding)) :
    ∃ blank after, binding = blank :: after ∧ isAsciiBlank blank = true := by
  induction text generalizing n before source with
  | nil => cases h
  | cons c rest ih =>
      simp only [Iteration.splitAs] at h
      split at h
      · next later =>
          cases h
          exact ih later
      · split at h
        · next blank after _ =>
            split at h
            · next here =>
                cases h
                simp only [Bool.and_eq_true] at here
                exact ⟨blank, after, rfl, here.2⟩
            · cases h
        · cases h

theorem isBlank_of_isAsciiBlank {c : Char} (h : isAsciiBlank c = true) : isBlank c = true := by
  simp only [isAsciiBlank, isSpaceOrTab, Bool.or_eq_true, beq_iff_eq] at h
  rcases h with (((rfl | rfl) | rfl) | rfl) | rfl <;> decide

theorem not_blank_of_getLast?_trim {text : List Char} {c : Char}
    (last : (ThemeTemplates.trim text).getLast? = some c) : isBlank c = false := by
  have := List.head?_dropWhile_not isBlank (text.dropWhile isBlank).reverse
  simp only [ThemeTemplates.trim, stripEnds, List.getLast?_reverse] at last
  simpa [last] using this

theorem source (h : Part part whole) {source binding : List Char}
    (found : Iteration.splitAs {} none part = some (source, binding)) :
    Part (ThemeTemplates.trim source) whole := by
  obtain ⟨cut, top, blank⟩ := splitAs_spec found
  have reached := eq_of_atTop top
  have contained := ((cut ▸ h.contained : Contained (source ++ 'a' :: 's' :: binding)).of_append
    reached).1
  obtain ⟨start, c, rfl⟩ : ∃ start c, source = start ++ [c] := by
    cases source using List.reverseRecOn with
    | nil => cases blank
    | append_singleton start c => exact ⟨start, c, rfl⟩
  have last : isBlank c = true := isBlank_of_isAsciiBlank (by simpa using blank)
  obtain ⟨before, after, trimmed, blankBefore, blankAfter⟩ := trim_spec (start ++ [c])
  have starts : (after ++ 'a' :: 's' :: binding).head?.any isWordStart = false ∨
      ThemeTemplates.trim (start ++ [c]) = [] := by
    cases after with
    | cons d rest => exact .inl (blank_noWord (blankAfter d List.mem_cons_self)).2.1
    | nil =>
        right
        cases kept : ThemeTemplates.trim (start ++ [c]) using List.reverseRecOn with
        | nil => rfl
        | append_singleton rest d =>
            have ends := congrArg List.getLast? trimmed
            rw [kept] at ends
            simp only [List.append_nil, ← List.append_assoc, List.getLast?_concat,
              Option.some.injEq] at ends
            have visible : isBlank d = false :=
              not_blank_of_getLast?_trim (show (ThemeTemplates.trim (start ++ [c])).getLast? = _ by
                rw [kept, List.getLast?_concat])
            rw [← ends, last] at visible
            cases visible
  rcases starts with starts | empty
  · refine h.narrow before (after ++ 'a' :: 's' :: binding) contained.trim ?_
      (outside_after_blanks blankBefore) (endsWord_blanks blankBefore) (.inr starts)
    rw [cut]
    nth_rewrite 1 [trimmed]
    simp
  · rw [empty] at trimmed ⊢
    refine h.narrow [] (start ++ [c] ++ 'a' :: 's' :: binding) .nil (by rw [cut]; rfl) rfl
      (fun _ last => by cases last) (.inr ?_)
    rw [trimmed, List.append_nil]
    have blanks : ∀ d ∈ before ++ after, isBlank d = true := by
      intro d hd
      rcases List.mem_append.mp hd with hd | hd
      · exact blankBefore d hd
      · exact blankAfter d hd
    cases both : before ++ after with
    | nil => simp [both] at trimmed
    | cons d rest => exact (blank_noWord (blanks d (by simp [both]))).2.1

theorem binding (h : Part part whole) {source binding : List Char}
    (found : Iteration.splitAs {} none part = some (source, binding))
    (bound : isVariable (ThemeTemplates.trim binding) = true) :
    Part (ThemeTemplates.trim binding) whole := by
  obtain ⟨cut, top, -⟩ := splitAs_spec found
  obtain ⟨blank, rest, starts, isBlank'⟩ := splitAs_blank found
  have reached := eq_of_atTop top
  have contained : Contained binding :=
    ((cut ▸ h.contained : Contained (source ++ 'a' :: 's' :: binding)).of_append reached).2
  obtain ⟨before, after, trimmed, blankBefore, blankAfter⟩ := trim_spec binding
  have nonempty : before ≠ [] := by
    rintro rfl
    have first : binding.head? = (ThemeTemplates.trim binding ++ after).head? := by
      rw [← List.nil_append (ThemeTemplates.trim binding), ← trimmed]
    unfold isVariable at bound
    split at bound
    · next sigil =>
        rw [sigil, starts] at first
        cases first
        cases isBlank'
    · cases bound
  refine h.narrow (source ++ 'a' :: 's' :: before) after contained.trim ?_ ?_ ?_
    (startsBlank blankAfter)
  · rw [cut]
    nth_rewrite 1 [trimmed]
    simp
  · have outside : Quotation.after .outside source = .outside := by
      have := Nesting.quotation_after {} source
      rw [reached] at this
      exact this.symm
    rw [Quotation.after, List.foldl_append]
    have word : Quotation.after .outside ('a' :: 's' :: before) = Quotation.after .outside before :=
      rfl
    exact (congrArg (fun q => Quotation.after q ('a' :: 's' :: before)) outside).trans
      (word.trans (outside_after_blanks blankBefore))
  · have ends : EndsWord before := endsWord_blanks blankBefore
    have last : (source ++ 'a' :: 's' :: before).getLast? = before.getLast? := by
      rw [List.getLast?_eq_some_getLast nonempty]
      simp [List.getLast?_append, List.getLast?_cons, List.getLast?_eq_some_getLast nonempty]
    intro c hc
    exact ends c (last ▸ hc)

theorem splitPieces_spec (separator : Char) (n : Nesting) (text : List Char) :
    ∃ first rest, splitPieces separator n text = first :: rest ∧
      ((rest = [] ∧ text = first) ∨
        ∃ following, text = first ++ separator :: following ∧ (n.after first).atTop = true ∧
          rest = splitPieces separator (n.after first) following) := by
  induction text generalizing n with
  | nil => exact ⟨[], [], rfl, .inl ⟨rfl, rfl⟩⟩
  | cons c rest ih =>
      simp only [splitPieces]
      split
      · next here =>
          simp only [Bool.and_eq_true, beq_iff_eq] at here
          obtain ⟨⟨top, rfl⟩, _⟩ := here
          exact ⟨[], _, rfl, .inr ⟨rest, rfl, top, rfl⟩⟩
      · obtain ⟨first, others, found, shape⟩ := ih (n.next c)
        rw [found]
        refine ⟨c :: first, others, rfl, ?_⟩
        rcases shape with ⟨none, whole⟩ | ⟨following, whole, top, others⟩
        · exact .inl ⟨none, by rw [whole]⟩
        · exact .inr ⟨following, by rw [whole, List.cons_append], top, others⟩

theorem piece {pieces : List (List Char)} (h : Part part whole)
    (found : splitPieces ',' {} part = pieces) {piece : List Char} (hmem : piece ∈ pieces) :
    Part piece whole := by
  induction pieces generalizing part with
  | nil => cases hmem
  | cons first rest ih =>
      obtain ⟨first', rest', split, shape⟩ := splitPieces_spec ',' {} part
      cases found.symm.trans split
      rcases shape with ⟨rfl, rfl⟩ | ⟨following, cut, top, others⟩
      · rw [List.mem_singleton.mp hmem]
        exact h
      have reached := eq_of_atTop top
      rw [reached] at others
      subst cut
      have contained := h.contained.of_append reached
      rcases List.mem_cons.mp hmem with rfl | hmem
      · exact h.narrow [] (',' :: following) contained.1 rfl rfl (fun _ last => by cases last)
          (.inr rfl)
      · have outside : Quotation.after .outside (first ++ [',']) = .outside := by
          have := Nesting.quotation_after {} first
          rw [reached] at this
          rw [Quotation.after, List.foldl_append]
          exact congrArg (fun q => Quotation.after q [',']) this.symm
        have rest : Contained following := contained.2
        refine ih (h.narrow (first ++ [',']) [] rest (by simp) outside ?_ (.inl rfl))
          others.symm hmem
        intro c last
        rw [List.getLast?_concat] at last
        cases last
        decide

theorem topLevelPiece (h : Part part whole) {piece : List Char}
    (hmem : piece ∈ splitTopLevel ',' part) : Part piece whole := by
  have trimmed : piece ∈ (splitPieces ',' {} part).map ThemeTemplates.trim := by
    unfold splitTopLevel at hmem
    split at hmem
    · cases hmem
    · exact hmem
  obtain ⟨untrimmed, isPiece, rfl⟩ := List.mem_map.mp trimmed
  exact (h.piece rfl isPiece).trim

end Part

/-! ### Ends of texts -/

theorem visible_of_word {c : Char} (h : isWordChar c = true) : isBlank c = false := by
  rw [← Bool.not_eq_true]
  intro blank
  rw [(Part.blank_noWord blank).1] at h
  cases h

/-- A text that shows what stands at both of its ends. -/
def Visible (text : List Char) : Prop :=
  text.head?.any (fun c => !isBlank c) = true ∧ text.getLast?.any (fun c => !isBlank c) = true

theorem Visible.trim_eq {text : List Char} (h : Visible text) : trim text = text := by
  obtain ⟨first, last⟩ := h
  cases text with
  | nil => cases first
  | cons c rest =>
      have kept : (c :: rest).dropWhile isBlank = c :: rest :=
        List.dropWhile_cons_of_neg (by simpa using first)
      rw [trim, stripEnds, kept]
      rw [List.getLast?_eq_head?_reverse] at last
      cases reversed : (c :: rest).reverse with
      | nil => simp at reversed
      | cons d back =>
          rw [reversed] at last
          rw [List.dropWhile_cons_of_neg (by simpa using last), ← reversed, List.reverse_reverse]

theorem visible_trim {text : List Char} (nonempty : trim text ≠ []) : Visible (trim text) := by
  have isPrefix : trim text <+: text.dropWhile isBlank := by
    rw [← List.reverse_suffix, trim, stripEnds, List.reverse_reverse]
    exact List.dropWhile_suffix _
  have start := List.head?_dropWhile_not isBlank text
  have last := List.getLast?_eq_some_getLast nonempty
  constructor
  · cases same : trim text with
    | nil => exact absurd same nonempty
    | cons c rest =>
        obtain ⟨more, whole⟩ := isPrefix
        rw [same] at whole
        rw [← whole] at start
        simpa using start
  · rw [last]
    simp [Part.not_blank_of_getLast?_trim last]

end ThemeTemplates
