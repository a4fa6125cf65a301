import Mathlib.Data.List.DropRight
import ThemeTemplates.Proofs.Argument.Iteration

/-!
# Iterations without parentheses, read again

How much of the text behind a directive is its argument is found by looking ahead; what the argument
says is read from the whole of what was taken, like any other. Both find the same path and the same
binding, and parentheses around what was taken change nothing.
-/

namespace ThemeTemplates.Iteration

/-! ### What is taken -/

theorem span_of_stop {p : Char → Bool} {first rest : List Char} (all : ∀ c ∈ first, p c = true)
    (stops : rest.head?.any p = false) : (first ++ rest).span p = (first, rest) := by
  rw [List.span_eq_takeWhile_dropWhile, List.takeWhile_append_of_pos all,
    List.dropWhile_append_of_pos all]
  cases rest with
  | nil => simp
  | cons c rest =>
      have other : ¬p c = true := by simpa using stops
      rw [List.takeWhile_cons_of_neg other, List.dropWhile_cons_of_neg other, List.append_nil]

theorem head?_stepsOf (words : List (List Char)) {rest : List Char}
    (stops : rest.head?.any isWordChar = false) :
    (stepsOf words ++ rest).head?.any isWordChar = false := by
  cases words with
  | nil => exact stops
  | cons word words => rfl

theorem spanSteps_stepsOf {words : List (List Char)} {rest : List Char}
    (areWords : ∀ word ∈ words, Word word) (noStep : rest.head? ≠ some '.')
    (stops : rest.head?.any isWordChar = false) :
    spanSteps (stepsOf words ++ rest) = (stepsOf words, rest) := by
  induction words with
  | nil =>
      rw [stepsOf, List.flatMap_nil, List.nil_append, spanSteps]
      rintro tail rfl
      exact noStep rfl
  | cons word words ih =>
      obtain ⟨isWord, others⟩ := List.forall_mem_cons.mp areWords
      obtain ⟨c, letters, rfl⟩ := List.exists_cons_of_ne_nil isWord.1
      have cut : (c :: letters ++ (stepsOf words ++ rest)).span isWordChar =
          (c :: letters, stepsOf words ++ rest) :=
        span_of_stop isWord.2 (head?_stepsOf words stops)
      rw [List.span_eq_takeWhile_dropWhile] at cut
      obtain ⟨taken, left⟩ := Prod.mk.inj cut
      have whole : stepsOf ((c :: letters) :: words) ++ rest =
          '.' :: (c :: letters ++ (stepsOf words ++ rest)) := by
        simp [stepsOf]
      rw [whole, spanSteps, taken]
      simp only [left, ih others]
      simp [stepsOf]

theorem guard_bind {α : Type} {p : Prop} [Decidable p] (holds : p) (next : Unit → Option α) :
    (guard p >>= next) = next () := by
  rw [guard, if_pos holds]
  rfl

theorem not_spaceOrTab_of_word {c : Char} (letter : isWordChar c = true) :
    isSpaceOrTab c = false := by
  rw [← Bool.not_eq_true]
  intro blank
  have visible := visible_of_word letter
  rw [isBlank_of_isSpaceOrTab blank] at visible
  cases visible

theorem not_word_of_spaceOrTab {c : Char} (blank : isSpaceOrTab c = true) :
    isWordChar c = false := by
  rw [← Bool.not_eq_true]
  intro letter
  rw [not_spaceOrTab_of_word letter] at blank
  cases blank

theorem VariablePath.stops_blanks {path : List Char} (h : VariablePath path) (rest : List Char) :
    (path ++ rest).head?.any isSpaceOrTab = false := by
  obtain ⟨c, more, rfl⟩ := List.exists_cons_of_ne_nil h.nonempty
  rw [← Bool.not_eq_true]
  intro blank
  have visible := h.noBlank c List.mem_cons_self
  rw [isBlank_of_isSpaceOrTab blank] at visible
  cases visible

/-- What is spelled with a variable behind the word is taken up to the end of that variable. -/
theorem split_of_variable (spelling : BareSpelling) {name rest : List Char}
    (bound : spelling.binding = '$' :: name) (letters : ∀ c ∈ name, isWordChar c = true)
    (stops : rest.head?.any isWordChar = false) :
    splitBareIteration (spelling.taken ++ rest) = some (spelling.taken, rest) := by
  obtain ⟨gap, path, behind, front, piece, isPath, blankGap, blankBehind, blankFront, inPiece⟩ :=
    spelling
  obtain rfl : piece = '$' :: name := bound
  simp only [BareSpelling.taken, BareSpelling.side, List.append_assoc, List.cons_append]
  have pathStops := isPath.stops_blanks
  obtain ⟨sigil, start, words, rfl, isSigil, starts, lettersStart, areWords⟩ := isPath
  generalize afterPath : behind ++ 'a' :: 's' :: (front ++ '$' :: (name ++ rest)) = tail
  obtain ⟨space, spaces, rfl⟩ := List.exists_cons_of_ne_nil blankBehind.1
  have isSpace := blankBehind.2 space List.mem_cons_self
  have tailStops : tail.head?.any isWordChar = false := by
    rw [← afterPath]
    exact not_word_of_spaceOrTab isSpace
  have cutGap : (gap ++ (sigil ++ (start ++ stepsOf words) ++ tail)).span isSpaceOrTab =
      (gap, sigil ++ (start ++ (stepsOf words ++ tail))) := by
    rw [span_of_stop blankGap.2 (pathStops tail)]
    simp
  have cutName : (start ++ (stepsOf words ++ tail)).span isWordChar =
      (start, stepsOf words ++ tail) :=
    span_of_stop lettersStart (head?_stepsOf words tailStops)
  have cutSteps : spanSteps (stepsOf words ++ tail) = (stepsOf words, tail) := by
    refine spanSteps_stepsOf areWords ?_ tailStops
    rw [← afterPath]
    rintro same
    cases Option.some.inj same
    cases isSpace
  have cutBehind : tail.span isSpaceOrTab =
      (space :: spaces, 'a' :: 's' :: (front ++ '$' :: (name ++ rest))) := by
    rw [← afterPath]
    exact span_of_stop blankBehind.2 rfl
  have cutFront : (front ++ '$' :: (name ++ rest)).span isSpaceOrTab =
      (front, '$' :: (name ++ rest)) :=
    span_of_stop blankFront.2 rfl
  have cutBinding : (name ++ rest).span isWordChar = (name, rest) := span_of_stop letters stops
  rw [List.span_eq_takeWhile_dropWhile] at cutBinding
  obtain ⟨taken, left⟩ := Prod.mk.inj cutBinding
  have startsHere : (start ++ (stepsOf words ++ tail)).head?.any isWordStart = true := by
    cases start with
    | nil => cases starts
    | cons c start => exact starts
  have keyword : ['a', 's'].isPrefixOf? ('a' :: 's' :: (front ++ '$' :: (name ++ rest))) =
      some (front ++ '$' :: (name ++ rest)) := rfl
  unfold splitBareIteration
  rw [cutGap]
  dsimp -proj only
  rw [guard_bind (by simpa using blankGap.1)]
  split
  case' h_1 afterSigil begins =>
    obtain ⟨rfl, rfl⟩ : sigil = ['$'] ∧ afterSigil = start ++ (stepsOf words ++ tail) := by
      rcases isSigil with rfl | rfl
      · rw [List.nil_append] at begins
        rw [begins] at startsHere
        cases startsHere
      · exact ⟨rfl, (List.cons.inj begins).2.symm⟩
  case' h_2 noSigil =>
    obtain rfl : sigil = [] := isSigil.resolve_right fun sigiled => noSigil _ (by rw [sigiled]; rfl)
    rw [List.nil_append]
  all_goals
    rw [guard_bind startsHere, cutName]
    dsimp only
    rw [cutSteps]
    dsimp only
    rw [cutBehind]
    dsimp only
    rw [guard_bind (by rfl), keyword, Option.bind_eq_bind, Option.bind_some, cutFront]
    dsimp only
    rw [guard_bind (by simpa using blankFront.1), guard_bind (by rfl)]
    simp [taken, left]

/-! ### What is read -/

/-- A layer of parentheses around a text that leaves nothing open is taken off. -/
theorem unwrap_parenthesised {text : List Char} (contained : Contained text) :
    unwrap ('(' :: (text ++ [')'])) = unwrap text := by
  have layer : Counted ('(' :: (text ++ [')'])) text := ⟨')', rfl, rfl, contained⟩
  exact unwrap_of_some (layer.trim_eq.symm ▸ unwrapOnce_eq_some_iff.mpr layer)

theorem rdropWhile_append (p : Char → Bool) (first second : List Char) :
    (first ++ second).rdropWhile p =
      if second.rdropWhile p = [] then first.rdropWhile p else first ++ second.rdropWhile p := by
  simp only [List.rdropWhile, List.reverse_append, List.dropWhile_append, List.reverse_eq_nil_iff,
    List.isEmpty_iff]
  split
  · rfl
  · rw [List.reverse_append, List.reverse_reverse]

/-- A text behind one that shows both of its ends loses the blanks at its own end. -/
theorem trim_append {front : List Char} (visible : Visible front) (text : List Char) :
    trim (front ++ text) = front ++ text.rdropWhile isBlank := by
  have starts : (front ++ text).dropWhile isBlank = front ++ text := by
    cases front with
    | nil => cases visible.1
    | cons c front => exact List.dropWhile_cons_of_neg (by simpa using visible.1)
  have ends : front.rdropWhile isBlank = front := by
    refine List.rdropWhile_eq_self_iff.mpr fun nonempty => ?_
    simpa [List.getLast?_eq_some_getLast nonempty] using visible.2
  have right : trim (front ++ text) = (front ++ text).rdropWhile isBlank :=
    congrArg (List.rdropWhile isBlank) starts
  rw [right, rdropWhile_append, ends]
  split
  · next none => rw [none, List.append_nil]
  · rfl

theorem trim_rdropWhile (text : List Char) : trim (text.rdropWhile isBlank) = trim text := by
  have cut := List.rdropWhile_append_rtakeWhile (p := isBlank) (l := text)
  conv_rhs => rw [← cut]
  exact (trim_append_blanks (fun c hmem => List.mem_rtakeWhile_imp hmem) _).symm

namespace BareSpelling

variable (spelling : BareSpelling)

theorem noBreak_of_blanks {text : List Char} (blank : ∀ c ∈ text, isSpaceOrTab c = true) :
    '\n' ∉ text := by
  intro hmem
  cases blank _ hmem

theorem noBreak : '\n' ∉ spelling.taken := by
  obtain ⟨gap, path, behind, front, binding, isPath, blankGap, blankBehind, blankFront, inPiece⟩ :=
    spelling
  have inPath : '\n' ∉ path := fun hmem => nomatch isPath.noBlank _ hmem
  have inBinding : '\n' ∉ binding := fun hmem => nomatch inPiece _ hmem
  simp [taken, side, noBreak_of_blanks blankGap.2, noBreak_of_blanks blankBehind.2,
    noBreak_of_blanks blankFront.2, inPath, inBinding]

theorem trim_source : trim (spelling.path ++ spelling.behind) = spelling.path := by
  have blank : ∀ c ∈ spelling.behind, isBlank c = true :=
    fun c hmem => isBlank_of_isSpaceOrTab (spelling.blankBehind.2 c hmem)
  rw [trim_append_blanks blank, spelling.isPath.visible.trim_eq]

theorem visible_word : Visible (spelling.path ++ spelling.behind ++ ['a', 's']) := by
  refine ⟨?_, ?_⟩
  · rw [List.append_assoc, List.head?_append_of_ne_nil _ spelling.isPath.nonempty]
    exact spelling.isPath.visible.1
  · rw [List.getLast?_append]
    rfl

theorem unwrap_taken : unwrap spelling.taken =
    spelling.path ++ spelling.behind ++ 'a' :: 's' :: spelling.side.rdropWhile isBlank := by
  have blank : ∀ c ∈ spelling.gap, isBlank c = true :=
    fun c hmem => isBlank_of_isSpaceOrTab (spelling.blankGap.2 c hmem)
  have whole : spelling.taken =
      spelling.gap ++ (spelling.path ++ spelling.behind ++ ['a', 's'] ++ spelling.side) := by
    simp [taken]
  refine unwrap_of_trim ?_ ?_
  · rw [whole, trim_blanks_append blank, trim_append spelling.visible_word]
    simp
  · rw [List.append_assoc]
    exact (starts_core _ spelling.isPath.head).2

theorem neutral_source : ∀ c ∈ spelling.path ++ spelling.behind, isNeutral c = true :=
  List.forall_mem_append.mpr
    ⟨spelling.isPath.neutral, fun c hmem =>
      isNeutral_of_isSpaceOrTab (spelling.blankBehind.2 c hmem)⟩

theorem lastKeyword (shown : trim spelling.side ≠ []) : LastKeyword (unwrap spelling.taken)
    (spelling.path ++ spelling.behind) (spelling.side.rdropWhile isBlank) := by
  have kept : spelling.side.rdropWhile isBlank =
      spelling.front ++ spelling.binding.rdropWhile isBlank := by
    rw [side, rdropWhile_append, if_neg]
    rw [List.rdropWhile_eq_nil_iff]
    intro blank
    refine shown (trim_eq_nil_iff.mpr (List.forall_mem_append.mpr ⟨?_, blank⟩))
    exact fun c hmem => isBlank_of_isSpaceOrTab (spelling.blankFront.2 c hmem)
  have nonempty := spelling.blankBehind.1
  rw [spelling.unwrap_taken, kept]
  refine lastKeyword_of_piece ?_ ?_ spelling.blankFront.1 ?_ ?_
  · exact (settled_iff_atTop _).mpr (atTop_of_neutral spelling.neutral_source)
  · rw [List.getLast?_append, List.getLast?_eq_some_getLast nonempty]
    exact isSpaceOrTab_isAsciiBlank (spelling.blankBehind.2 _ (List.getLast_mem nonempty))
  · exact fun c hmem => isSpaceOrTab_isAsciiBlank (spelling.blankFront.2 c hmem)
  · exact fun c hmem => spelling.inPiece c ((List.rdropWhile_prefix _ _).subset hmem)

theorem splitAs_of_blank (blank : trim spelling.side = []) :
    splitAs {} none (unwrap spelling.taken) = none := by
  refine Option.eq_none_iff_forall_ne_some.mpr fun ⟨before, after⟩ found => ?_
  obtain ⟨whole, -, blankBefore, blankAfter⟩ := Keyword.of_splitAs found
  rw [spelling.unwrap_taken, List.rdropWhile_eq_nil_iff.mpr (trim_eq_nil_iff.mp blank)] at whole
  obtain ⟨space, isLast, isSpace⟩ := (Option.any_eq_true _ _).mp blankBefore
  have noWord : 'a' ∉ spelling.behind := fun hmem => nomatch spelling.blankBehind.2 _ hmem
  rw [List.append_assoc] at whole
  rcases List.append_eq_append_iff.mp whole with ⟨between, -, tail⟩ | ⟨more, inPath, -⟩
  · rcases List.append_eq_append_iff.mp tail with ⟨more, -, word⟩ | ⟨more, inBlanks, word⟩
    · have short := congrArg List.length word
      simp only [List.length_append, List.length_cons, List.length_nil] at short
      rw [List.length_eq_zero_iff.mp (show after.length = 0 by omega)] at blankAfter
      cases blankAfter
    · cases more with
      | nil =>
          obtain rfl : after = [] := by simpa using word
          cases blankAfter
      | cons c more =>
          obtain ⟨rfl, -⟩ := List.cons.inj word
          exact noWord (by rw [inBlanks]; simp)
  · have visible := spelling.isPath.noBlank space
      (inPath ▸ List.mem_append_left more (List.mem_of_getLast? isLast))
    rw [Part.isBlank_of_isAsciiBlank isSpace] at visible
    cases visible

theorem parse_refused_taken (noVariable : isVariable (trim spelling.side) = false)
    (directive : String) :
    parse directive spelling.taken = .error (.malformed directive (String.ofList spelling.taken)
      (if trim spelling.side = [] then .missingAs
        else .badBinding (String.ofList (trim spelling.side)))) := by
  split
  · next blank => rw [parse, spelling.splitAs_of_blank blank]
  · next shown =>
      have nonempty : spelling.path.isEmpty = false := by simpa using spelling.isPath.nonempty
      rw [parse_of_keyword (spelling.lastKeyword shown), ofParts, spelling.trim_source,
        trim_rdropWhile]
      simp [nonempty, noVariable]

theorem contained_taken {name : List Char} (bound : trim spelling.side = '$' :: name)
    (named : Identifier name) : Contained spelling.taken := by
  have inSide : ∀ c ∈ spelling.side, isNeutral c = true := by
    obtain ⟨before, after, whole, blankBefore, blankAfter⟩ := trim_spec spelling.side
    rw [whole, bound]
    intro c hmem
    simp only [List.mem_append] at hmem
    rcases hmem with (hmem | hmem) | hmem
    · exact isNeutral_iff.mpr (not_quote_of_blank (blankBefore c hmem))
    · exact neutral_of_isVariable (isVariable_iff.mpr ⟨name, rfl, named⟩) c hmem
    · exact isNeutral_iff.mpr (not_quote_of_blank (blankAfter c hmem))
  refine contained_of_neutral fun c hmem => ?_
  simp only [taken, List.mem_append, List.mem_cons] at hmem
  rcases hmem with hmem | hmem | hmem | rfl | rfl | hmem
  · exact isNeutral_of_isSpaceOrTab (spelling.blankGap.2 c hmem)
  · exact spelling.isPath.neutral c hmem
  · exact isNeutral_of_isSpaceOrTab (spelling.blankBehind.2 c hmem)
  · rfl
  · rfl
  · exact inSide c hmem

theorem read_variable {name : List Char} (bound : trim spelling.side = '$' :: name)
    (named : Identifier name) (directive : String) :
    parse directive spelling.taken = .ok ⟨spelling.path, '$' :: name⟩ ∧
      parse directive ('(' :: (spelling.taken ++ [')'])) = .ok ⟨spelling.path, '$' :: name⟩ ∧
      parseLoop spelling.taken = .ok ⟨spelling.path, '$' :: name⟩ ∧
      parseLoop ('(' :: (spelling.taken ++ [')'])) = .ok ⟨spelling.path, '$' :: name⟩ := by
  have shown : trim spelling.side ≠ [] := by simp [bound]
  have same := unwrap_parenthesised (spelling.contained_taken bound named)
  have isLast := spelling.lastKeyword shown
  have parts : ∀ directive raw, ofParts directive raw (spelling.path ++ spelling.behind)
      (spelling.side.rdropWhile isBlank) = .ok ⟨spelling.path, '$' :: name⟩ := fun directive raw =>
    ofParts_eq_ok_iff.mpr ⟨spelling.trim_source, spelling.isPath.nonempty,
      (trim_rdropWhile _).trans bound, isVariable_iff.mpr ⟨name, rfl, named⟩⟩
  refine ⟨?_, ?_, ?_, ?_⟩
  · rw [parse_of_keyword isLast, parts]
  · rw [parse_of_keyword (same.symm ▸ isLast), parts]
  · rw [parseLoop_of_keyword isLast, parts]
  · rw [parseLoop_of_keyword (same.symm ▸ isLast), parts]

end BareSpelling

/-- What a loop takes without parentheses, and what is read from it. No line break is taken. If a
variable stands behind the word, path and variable are read by every directive, with and without
parentheses around them; if none does, the argument is refused. Whatever is spelled with a variable
behind the word is taken up to the end of that variable. -/
theorem bare_iteration_read_alike (text : List Char) :
    (∀ length, bareIterationLength text = some length →
      ∃ (spelling : BareSpelling) (rest : List Char), text = spelling.taken ++ rest ∧
      utf8Length spelling.taken = length ∧ '\n' ∉ spelling.taken ∧
      (∀ name, trim spelling.side = '$' :: name → Identifier name → ∀ directive,
        parse directive spelling.taken = .ok ⟨spelling.path, '$' :: name⟩ ∧
        parse directive ('(' :: (spelling.taken ++ [')'])) = .ok ⟨spelling.path, '$' :: name⟩ ∧
        parseLoop spelling.taken = .ok ⟨spelling.path, '$' :: name⟩ ∧
        parseLoop ('(' :: (spelling.taken ++ [')'])) = .ok ⟨spelling.path, '$' :: name⟩) ∧
      ((¬∃ name, trim spelling.side = '$' :: name ∧ Identifier name) → ∀ directive,
        parse directive spelling.taken = .error (.malformed directive (String.ofList spelling.taken)
          (if trim spelling.side = [] then .missingAs
            else .badBinding (String.ofList (trim spelling.side)))))) ∧
    ∀ (spelling : BareSpelling) (name rest : List Char), text = spelling.taken ++ rest →
      spelling.binding = '$' :: name → Identifier name → rest.head?.any isWordChar = false →
      bareIterationLength text = some (utf8Length spelling.taken) := by
  refine ⟨fun length found => ?_, fun spelling name rest whole bound named stops => ?_⟩
  · obtain ⟨⟨taken, rest⟩, split, sameLength⟩ := Option.map_eq_some_iff.mp found
    obtain ⟨cut, spelling, rfl⟩ := spelling_of_split split
    refine ⟨spelling, rest, cut, sameLength, spelling.noBreak, fun name bound named directive => ?_,
      fun other directive => ?_⟩
    · exact spelling.read_variable bound named directive
    · refine spelling.parse_refused_taken ?_ directive
      rw [← Bool.not_eq_true]
      exact fun isVar => other (isVariable_iff.mp isVar)
  · rw [whole, bareIterationLength, split_of_variable spelling bound named.letters stops]
    rfl

end ThemeTemplates.Iteration
