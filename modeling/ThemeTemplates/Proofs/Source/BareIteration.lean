import Mathlib.Data.List.TakeDrop
import ThemeTemplates.Proofs.Argument.Keyword
import ThemeTemplates.Proofs.Directive.Roles

/-!
# Iterations without parentheses

What a loop takes from the text behind it is either free of literals and brackets or no iteration.
-/

namespace ThemeTemplates

theorem isNeutral_of_isWordChar {c : Char} (h : isWordChar c = true) : isNeutral c = true :=
  isNeutral_iff.mpr (Token.numeric_neutral (by simp [Literal.isNumeric, h]))

theorem isBlank_of_isSpaceOrTab {c : Char} (h : isSpaceOrTab c = true) : isBlank c = true :=
  Part.isBlank_of_isAsciiBlank (isSpaceOrTab_isAsciiBlank h)

theorem isNeutral_of_isSpaceOrTab {c : Char} (h : isSpaceOrTab c = true) : isNeutral c = true :=
  isNeutral_iff.mpr (not_quote_of_blank (isBlank_of_isSpaceOrTab h))

theorem contained_of_neutral {text : List Char} (h : ∀ c ∈ text, isNeutral c = true) :
    Contained text :=
  Token.run?_neutral (fun c hmem => isNeutral_iff.mp (h c hmem)) 0

namespace Iteration

/-- A letter, a digit or an underscore, or several of them. -/
def Word (text : List Char) : Prop :=
  text ≠ [] ∧ ∀ c ∈ text, isWordChar c = true

def stepsOf (words : List (List Char)) : List Char :=
  words.flatMap ('.' :: ·)

/-- A variable path: a name with or without its sigil, and words behind dots. -/
structure VariablePath (path : List Char) where
  sigil : List Char
  name : List Char
  words : List (List Char)
  whole : path = sigil ++ (name ++ stepsOf words)
  isSigil : sigil = [] ∨ sigil = ['$']
  starts : name.head?.any isWordStart = true
  letters : ∀ c ∈ name, isWordChar c = true
  areWords : ∀ word ∈ words, Word word

theorem letters_of_stepsOf {words : List (List Char)} (areWords : ∀ word ∈ words, Word word) :
    ∀ c ∈ stepsOf words, c = '.' ∨ isWordChar c = true := by
  intro c hmem
  obtain ⟨word, isWord, inWord⟩ := List.mem_flatMap.mp hmem
  rcases List.mem_cons.mp inWord with rfl | inWord
  · exact .inl rfl
  · exact .inr ((areWords word isWord).2 c inWord)

namespace VariablePath

variable {path : List Char} (h : VariablePath path)

include h

theorem nonempty : path ≠ [] := by
  obtain ⟨sigil, name, words, rfl, -, starts, -⟩ := h
  cases name with
  | nil => cases starts
  | cons c name => simp

theorem chars : ∀ c ∈ path, c = '$' ∨ c = '.' ∨ isWordChar c = true := by
  obtain ⟨sigil, name, words, rfl, isSigil, -, letters, areWords⟩ := h
  intro c hmem
  simp only [List.mem_append] at hmem
  rcases hmem with hmem | hmem | hmem
  · rcases isSigil with rfl | rfl
    · cases hmem
    · exact .inl (List.mem_singleton.mp hmem)
  · exact .inr (.inr (letters c hmem))
  · exact .inr (letters_of_stepsOf areWords c hmem)

theorem neutral : ∀ c ∈ path, isNeutral c = true := by
  intro c hmem
  rcases h.chars c hmem with rfl | rfl | letter
  · rfl
  · rfl
  · exact isNeutral_of_isWordChar letter

theorem noBlank : ∀ c ∈ path, isBlank c = false := by
  intro c hmem
  rcases h.chars c hmem with rfl | rfl | letter
  · decide
  · decide
  · exact visible_of_word letter

theorem visible : Visible path := by
  have first := List.head_mem h.nonempty
  have last := List.getLast_mem h.nonempty
  rw [Visible, List.head?_eq_some_head h.nonempty, List.getLast?_eq_some_getLast h.nonempty]
  simp [h.noBlank _ first, h.noBlank _ last]

theorem head : path.head?.any (fun c => c == '$' || isWordStart c) = true := by
  obtain ⟨sigil, name, words, rfl, isSigil, starts, -⟩ := h
  rcases isSigil with rfl | rfl
  · cases name with
    | nil => cases starts
    | cons c name =>
        have start : isWordStart c = true := starts
        simp [start]
  · rfl

end VariablePath

theorem spanSteps_spec (text : List Char) : ∃ words, (∀ word ∈ words, Word word) ∧
    (spanSteps text).1 = stepsOf words ∧ text = (spanSteps text).1 ++ (spanSteps text).2 := by
  induction text using spanSteps.induct with
  | case1 rest none =>
      rw [spanSteps, none]
      exact ⟨[], by simp, rfl, rfl⟩
  | case2 rest c word found steps after split ih =>
      have whole := List.takeWhile_append_dropWhile (p := isWordChar) (l := rest)
      rw [split] at ih
      rw [spanSteps, found]
      simp only [split]
      obtain ⟨words, areWords, steps_eq, cut⟩ := ih
      have isWord : Word (c :: word) := by
        refine ⟨List.cons_ne_nil c word, ?_⟩
        rw [← found]
        exact fun d hd => List.mem_takeWhile_imp hd
      refine ⟨(c :: word) :: words, List.forall_mem_cons.mpr ⟨isWord, areWords⟩, ?_, ?_⟩
      · simp only at steps_eq
        rw [steps_eq]
        simp [stepsOf]
      · rw [← whole, found, cut]
        simp
  | case3 text other =>
      rw [spanSteps]
      · exact ⟨[], by simp, rfl, rfl⟩
      · exact other

/-- An iteration as it is written without parentheses: blanks, a variable path, the word between
blanks, and a binding in one piece. -/
structure BareSpelling where
  gap : List Char
  path : List Char
  behind : List Char
  front : List Char
  binding : List Char
  isPath : VariablePath path
  blankGap : gap ≠ [] ∧ ∀ c ∈ gap, isSpaceOrTab c = true
  blankBehind : behind ≠ [] ∧ ∀ c ∈ behind, isSpaceOrTab c = true
  blankFront : front ≠ [] ∧ ∀ c ∈ front, isSpaceOrTab c = true
  inPiece : ∀ c ∈ binding, isAsciiBlank c = false

namespace BareSpelling

def side (spelling : BareSpelling) : List Char :=
  spelling.front ++ spelling.binding

def taken (spelling : BareSpelling) : List Char :=
  spelling.gap ++ (spelling.path ++ (spelling.behind ++ 'a' :: 's' :: spelling.side))

end BareSpelling

/-- The shape of an iteration without parentheses: a source, the word between blanks, and a binding
that is a variable or at least in one piece. -/
structure Bare (taken : List Char) where
  gap : List Char
  source : List Char
  behind : List Char
  binding : List Char
  whole : taken = gap ++ (source ++ 'a' :: 's' :: (behind ++ binding))
  blankGap : ∀ c ∈ gap, isSpaceOrTab c = true
  starts : source.head?.any (fun c => c == '$' || isWordStart c) = true
  ends : source.getLast?.any isSpaceOrTab = true
  neutral : ∀ c ∈ source, isNeutral c = true
  blankBehind : behind ≠ [] ∧ ∀ c ∈ behind, isSpaceOrTab c = true
  binds : (∀ c ∈ binding, isNeutral c = true) ∨ ∀ c ∈ binding, isAsciiBlank c = false

theorem of_guard {α : Type} {p : Prop} [Decidable p] {next : Unit → Option α} {a : α}
    (h : (guard p >>= next) = some a) : p ∧ next () = some a := by
  by_cases holds : p
  · rw [guard, if_pos holds] at h
    exact ⟨holds, h⟩
  · rw [guard, if_neg holds] at h
    cases h

theorem span_spec {p : Char → Bool} {text first rest : List Char}
    (h : text.span p = (first, rest)) : text = first ++ rest ∧ ∀ c ∈ first, p c = true := by
  rw [List.span_eq_takeWhile_dropWhile] at h
  cases h
  exact ⟨List.takeWhile_append_dropWhile.symm, fun _ hmem => List.mem_takeWhile_imp hmem⟩

theorem spelling_of_split {text taken remaining : List Char}
    (h : splitBareIteration text = some (taken, remaining)) :
    text = taken ++ remaining ∧ ∃ spelling : BareSpelling, spelling.taken = taken := by
  unfold splitBareIteration at h
  split at h
  next gap afterGap gapped =>
  have begins := (of_guard h).1
  replace h := (of_guard h).2
  split at h
  next sigil afterSigil sigiled =>
  have starts := (of_guard h).1
  replace h := (of_guard h).2
  split at h
  next name afterName named =>
  split at h
  next steps afterSteps stepped =>
  split at h
  next gap₁ afterGap₁ gapped₁ =>
  have ends := (of_guard h).1
  replace h := (of_guard h).2
  obtain ⟨afterAs, keyword, last⟩ := Option.bind_eq_some_iff.mp h
  clear h
  split at last
  next gap₂ afterGap₂ gapped₂ =>
  have behind := (of_guard last).1
  replace last := (of_guard last).2
  split at last
  next binding afterBinding bound =>
  replace last := (of_guard last).2
  obtain ⟨rfl, rfl⟩ := Prod.mk.inj (Option.some.inj last)
  clear last
  have sigil_spec : afterGap = sigil ++ afterSigil ∧ (sigil = [] ∨ sigil = ['$']) := by
    split at sigiled
    · cases sigiled
      exact ⟨rfl, .inr rfl⟩
    · cases sigiled
      exact ⟨rfl, .inl rfl⟩
  have binding_spec : afterGap₂ = binding ++ afterBinding ∧
      ∀ c ∈ binding, isAsciiBlank c = false := by
    split at bound
    · cases bound
      refine ⟨by simp, List.forall_mem_cons.mpr ⟨rfl, fun c hmem => ?_⟩⟩
      exact not_isAsciiBlank_of_isWordChar (List.mem_takeWhile_imp hmem)
    · obtain ⟨cut, whole⟩ := span_spec bound
      exact ⟨cut, fun c hmem => by simpa using whole c hmem⟩
  clear sigiled bound
  obtain ⟨rfl, isSigil⟩ := sigil_spec
  obtain ⟨rfl, inPiece⟩ := binding_spec
  obtain ⟨rfl, blankGap⟩ := span_spec gapped
  have nameStarts : name.head?.any isWordStart = true := by
    rw [List.span_eq_takeWhile_dropWhile] at named
    cases named
    cases afterSigil with
    | nil => cases starts
    | cons c text =>
        have start : isWordStart c = true := by simpa using starts
        simp [isWordStart_isWordChar start, start]
  obtain ⟨rfl, letters⟩ := span_spec named
  have spec := spanSteps_spec afterName
  rw [stepped] at spec
  obtain ⟨words, areWords, rfl, rfl⟩ := spec
  obtain ⟨rfl, blankGap₁⟩ := span_spec gapped₁
  have cut := List.append_eq_of_isPrefixOf?_eq_some keyword
  obtain ⟨rfl, blankGap₂⟩ := span_spec gapped₂
  subst cut
  let spelling : BareSpelling := {
    gap, path := sigil ++ (name ++ stepsOf words), behind := gap₁, front := gap₂, binding
    isPath := ⟨sigil, name, words, rfl, isSigil, nameStarts, letters, areWords⟩
    blankGap := ⟨by simpa using begins, blankGap⟩
    blankBehind := ⟨by simpa using ends, blankGap₁⟩
    blankFront := ⟨by simpa using behind, blankGap₂⟩
    inPiece }
  exact ⟨by simp, spelling, by simp [spelling, BareSpelling.taken, BareSpelling.side]⟩

theorem bare_of_split {text taken remaining : List Char}
    (h : splitBareIteration text = some (taken, remaining)) :
    text = taken ++ remaining ∧ Nonempty (Bare taken) := by
  obtain ⟨cut, spelling, rfl⟩ := spelling_of_split h
  obtain ⟨gap, path, behind, front, binding, isPath, blankGap, blankBehind, blankFront, inPiece⟩ :=
    spelling
  refine ⟨cut, ⟨gap, path ++ behind, front, binding, ?_, blankGap.2, ?_, ?_, ?_, blankFront,
    .inr inPiece⟩⟩
  · simp [BareSpelling.taken, BareSpelling.side]
  · rw [List.head?_append_of_ne_nil _ isPath.nonempty]
    exact isPath.head
  · have last := List.getLast?_eq_some_getLast blankBehind.1
    rw [List.getLast?_append, last]
    exact blankBehind.2 _ (List.getLast_mem blankBehind.1)
  · exact List.forall_mem_append.mpr
      ⟨isPath.neutral, fun c hmem => isNeutral_of_isSpaceOrTab (blankBehind.2 c hmem)⟩

/-! ### Bindings that are none -/

theorem trim_between {gap core binding : List Char} {x : Char}
    (blank : ∀ c ∈ gap, isBlank c = true) (starts : core.head?.any (fun c => !isBlank c) = true)
    (hmem : x ∈ binding) (visible : isBlank x = false) :
    ∃ kept, trim (gap ++ (core ++ binding)) = core ++ kept ∧ x ∈ kept ∧ kept <+: binding := by
  cases core with
  | nil => cases starts
  | cons d core =>
      have shown : isBlank d = false := by simpa using starts
      have stays : x ∈ binding.reverse.dropWhile isBlank := by
        have inside : x ∈ binding.reverse.takeWhile isBlank ++ binding.reverse.dropWhile
            isBlank := by
          rw [List.takeWhile_append_dropWhile]
          exact List.mem_reverse.mpr hmem
        rcases List.mem_append.mp inside with blank | kept
        · rw [List.mem_takeWhile_imp blank] at visible
          cases visible
        · exact kept
      refine ⟨(binding.reverse.dropWhile isBlank).reverse, ?_, List.mem_reverse.mpr stays, ?_⟩
      · unfold trim stripEnds
        rw [List.dropWhile_append_of_pos blank, List.cons_append,
          List.dropWhile_cons_of_neg (by simp [shown]), ← List.cons_append, List.reverse_append,
          List.dropWhile_append, if_neg (by simpa using List.ne_nil_of_mem stays),
          List.reverse_append, List.reverse_reverse]
      · rw [← List.reverse_suffix, List.reverse_reverse]
        exact List.dropWhile_suffix _

theorem mem_trim {text : List Char} {x : Char} (hmem : x ∈ text) (visible : isBlank x = false) :
    x ∈ trim text := by
  obtain ⟨before, after, whole, blankBefore, blankAfter⟩ := trim_spec text
  rw [whole] at hmem
  simp only [List.mem_append] at hmem
  rcases hmem with (hmem | hmem) | hmem
  · rw [blankBefore x hmem] at visible
    cases visible
  · exact hmem
  · rw [blankAfter x hmem] at visible
    cases visible

theorem neutral_of_isVariable {text : List Char} (h : isVariable text = true) :
    ∀ c ∈ text, isNeutral c = true := by
  unfold isVariable at h
  split at h
  · next c rest =>
      simp only [Bool.and_eq_true, List.all_eq_true] at h
      intro d hmem
      rcases List.mem_cons.mp hmem with rfl | hmem
      · rfl
      · rcases List.mem_cons.mp hmem with rfl | hmem
        · exact isNeutral_of_isWordChar (isWordStart_isWordChar h.1)
        · exact isNeutral_of_isWordChar (h.2 d hmem)
  · cases h

theorem atTop_of_neutral {text : List Char} (h : ∀ c ∈ text, isNeutral c = true) :
    (Nesting.after {} text).atTop = true := by
  rw [Nesting.after_of_run? (contained_of_neutral h)]
  rfl

theorem starts_core {source : List Char} (rest : List Char)
    (starts : source.head?.any (fun c => c == '$' || isWordStart c) = true) :
    (source ++ rest).head?.any (fun c => !isBlank c) = true ∧
    (source ++ rest).head? ≠ some '(' := by
  cases source with
  | nil => cases starts
  | cons c source =>
      have first : c = '$' ∨ isWordStart c = true := by simpa using starts
      have visible : isBlank c = false := by
        rw [← Bool.not_eq_true]
        intro blank
        rcases first with rfl | start
        · exact absurd blank (by decide)
        · rw [(Part.blank_noWord blank).2.1] at start
          cases start
      refine ⟨by simp [visible], ?_⟩
      rintro same
      have opening : c = '(' := Option.some.inj same
      subst opening
      rcases first with same | start
      · cases same
      · cases start

theorem unwrap_of_trim {text core : List Char} (trimmed : trim text = core)
    (noBracket : core.head? ≠ some '(') : unwrap text = core := by
  have none : unwrapOnce (trim text) = none := by
    rw [trimmed]
    unfold unwrapOnce
    split
    · exact absurd rfl noBracket
    · rfl
  rw [unwrap_of_none none, trimmed]

theorem refused_of_bare {taken : List Char} (bare : Bare taken) {x : Char} (hmem : x ∈ bare.binding)
    (opens : isNeutral x = false) (inPiece : ∀ c ∈ bare.binding, isAsciiBlank c = false) :
    unwrap taken ≠ [] ∧ ∃ source binding, splitAs {} none (unwrap taken) = some (source, binding) ∧
      isVariable (trim binding) = false := by
  revert hmem inPiece
  obtain ⟨gap, source, behind, binding, rfl, blankGap, starts, ends, neutral,
    ⟨nonempty, blankBehind⟩, -⟩ := bare
  intro hmem inPiece
  have visible : isBlank x = false := by
    rw [← Bool.not_eq_true]
    intro blank
    rw [isNeutral_iff.mpr (not_quote_of_blank blank)] at opens
    cases opens
  obtain ⟨startsCore, noBracket⟩ := starts_core ('a' :: 's' :: behind) starts
  obtain ⟨kept, trimmed, inside, start⟩ := trim_between
    (fun c h => isBlank_of_isSpaceOrTab (blankGap c h)) startsCore hmem visible
  have cut : unwrap (gap ++ (source ++ 'a' :: 's' :: (behind ++ binding))) =
      source ++ 'a' :: 's' :: behind ++ kept := by
    refine unwrap_of_trim ?_ ?_
    · rw [← trimmed]
      simp
    · rw [List.head?_append_of_ne_nil _ (by simp)]
      exact noBracket
  rw [cut]
  refine ⟨by simp, ?_⟩
  obtain ⟨blank, behind', rfl⟩ : ∃ blank behind', behind = blank :: behind' := by
    cases behind with
    | nil => exact absurd rfl nonempty
    | cons blank behind' => exact ⟨blank, behind', rfl⟩
  have blankHead := isSpaceOrTab_isAsciiBlank (blankBehind blank List.mem_cons_self)
  have blankLast : (source.getLast?.or none).any isAsciiBlank = true := by
    obtain ⟨c, last, space⟩ := (Option.any_eq_true _ _).mp ends
    rw [last]
    exact isSpaceOrTab_isAsciiBlank space
  obtain ⟨⟨source', binding'⟩, found, -⟩ :=
    @splitAs_isSome source (behind' ++ kept) blank blankHead {} none
      (atTop_of_neutral neutral) blankLast
  have same : source ++ 'a' :: 's' :: blank :: behind' ++ kept =
      source ++ 'a' :: 's' :: blank :: (behind' ++ kept) := by simp
  rw [same]
  refine ⟨source', binding', found, ?_⟩
  have split := (Part.splitAs_spec found).1
  obtain ⟨blank', after, rfl, isBlank'⟩ := Part.splitAs_blank found
  -- The last word between blanks cannot stand inside a text in one piece.
  have suffix : kept <:+ source ++ 'a' :: 's' :: blank :: (behind' ++ kept) :=
    ⟨source ++ 'a' :: 's' :: blank :: behind', by simp⟩
  have suffix' : blank' :: after <:+ source ++ 'a' :: 's' :: blank :: (behind' ++ kept) :=
    ⟨source' ++ ['a', 's'], by rw [split]; simp⟩
  have inBinding : x ∈ blank' :: after := by
    rcases List.suffix_or_suffix_of_suffix suffix suffix' with shorter | longer
    · exact shorter.subset inside
    · have plain := inPiece blank' (start.subset (longer.subset List.mem_cons_self))
      rw [isBlank'] at plain
      cases plain
  rw [← Bool.not_eq_true]
  intro variable'
  rw [neutral_of_isVariable variable' x (mem_trim inBinding visible)] at opens
  cases opens

end Iteration

end ThemeTemplates
