import ThemeTemplates.Proofs.Argument.Bare
import ThemeTemplates.Proofs.Offset.Brackets

/-!
# Iterations by offsets

Readers that search the octets of an argument for the word between its sides, cut the argument
there, and measure an argument without parentheses. None of them is trapped, and they answer what
the readers of characters answer.
-/

namespace ThemeTemplates.Offset

/-- Whether the word between two sides begins at an octet, with blanks around it. -/
def keywordAt (text : List Char) (n : Nesting) (offset : Nat) (octet : Char) : Except Trap Bool :=
  if octet == 'a' && n.atTop && octet? text (offset + 1) == some 's' && 0 < offset then do
    let before ← octetBefore text offset
    return isAsciiBlank before && (octet? text (offset + 2)).any isAsciiBlank
  else return false

/-- The offset of the last such word outside literals and brackets; `found` is the last one so
far. -/
def findAsIn (text : List Char) (n : Nesting) (found : Option Nat) (offset : Nat) :
    List Char → Except Trap (Option Nat)
  | [] => return found
  | octet :: rest => do
    let here ← keywordAt text n offset octet
    findAsIn text (n.next octet) (if here then some offset else found) (offset + 1) rest

def findAs (text : List Char) : Except Trap (Option Nat) :=
  findAsIn text {} none 0 (octets text)

/-- Reads `<source> as $<binding>` for a directive that cannot do without it. -/
def parse (directive : String) (raw : List Char) : Except Trap (Except CompileError Iteration) := do
  let text ← unwrap raw
  match ← findAs text with
  | some place =>
    let source ← slice text 0 place
    let binding ← sliceFrom text (place + 2)
    return Iteration.ofParts directive raw source binding
  | none => return .error (.malformed directive (String.ofList raw) .missingAs)

def parseLoop (raw : List Char) : Except Trap (Except CompileError Iteration) := do
  let text ← unwrap raw
  if text.isEmpty then
    return .ok { source := Iteration.currentQuery, binding := Iteration.defaultBinding }
  else
    match ← findAs text with
    | some place =>
      let source ← slice text 0 place
      let binding ← sliceFrom text (place + 2)
      return Iteration.ofParts "loop" raw source binding
    | none => return .ok { source := text, binding := Iteration.defaultBinding }

def stepsEnd (text : List Char) (place : Nat) : Except Trap Nat :=
  if _dot : octet? text place = some '.' then do
    let word ← countWhile isWordChar text (place + 1)
    if 0 < word then stepsEnd text (place + 1 + word) else return place
  else return place
termination_by (octets text).length - place
decreasing_by
  have := (List.getElem?_eq_some_iff.mp _dot).1
  omega

def bindingLength (text : List Char) (place : Nat) : Except Trap Nat :=
  if octet? text place = some '$' then do
    let word ← countWhile isWordChar text (place + 1)
    return 1 + word
  else countWhile (fun c => !isAsciiBlank c) text place

/-- The end of an iteration without parentheses whose source stands at an offset, behind its
sigil. -/
def bareEnd (text : List Char) (start : Nat) : Except Trap (Option Nat) :=
  if !(octet? text start).any isWordStart then return none
  else do
    let name ← countWhile isWordChar text start
    let pathEnd ← stepsEnd text (start + name)
    let behind ← countWhile isSpaceOrTab text pathEnd
    if behind = 0 then return none
    else
      let following ← sliceFrom text (pathEnd + behind)
      if !(['a', 's'].isPrefixOf following) then return none
      else
        let wordEnd := pathEnd + behind + 2
        let front ← countWhile isSpaceOrTab text wordEnd
        if front = 0 then return none
        else
          let binding ← bindingLength text (wordEnd + front)
          if binding = 0 then return none else return some (wordEnd + front + binding)

def bareLength (text : List Char) : Except Trap (Option Nat) := do
  let gap ← countWhile isSpaceOrTab text 0
  if gap = 0 then return none
  else bareEnd text (if octet? text gap = some '$' then gap + 1 else gap)

/-! ### The word between the sides -/

theorem keywordAt_eq {text front rest : List Char} {octet : Char}
    (whole : octets text = front ++ octet :: rest) (n : Nesting) :
      keywordAt text n front.length octet =
      .ok (octet == 'a' && n.atTop && front.getLast?.any isAsciiBlank &&
        Iteration.restOfWord rest) := by
  have later : ∀ k, octet? text (front.length + 1 + k) = rest[k]? := by
    intro k
    rw [octet?, whole, List.getElem?_append_right (by omega)]
    simp [Nat.add_comm 1 k, Nat.add_assoc]
  have second : octet? text (front.length + 1) = rest.head? := by
    rw [List.head?_eq_getElem?]
    exact later 0
  have third : octet? text (front.length + 2) = rest.tail.head? := by
    rw [List.head?_eq_getElem?, List.getElem?_tail]
    exact later 1
  rw [keywordAt, second, third]
  cases front using List.reverseRecOn with
  | nil => simp; rfl
  | append_singleton front before =>
      have letter : (rest.head? == some 's') = rest.head?.any (· == 's') := by
        cases rest <;> rfl
      rw [octetBefore_eq whole, ok_bind, letter, Iteration.restOfWord, List.getLast?_concat,
        Option.any_some]
      cases octet == 'a' <;> cases n.atTop <;> cases rest.head?.any (· == 's') <;> simp <;> rfl

theorem findAsIn_eq {text front rest : List Char} (whole : octets text = front ++ rest)
    (n : Nesting) (found : Option Nat) : findAsIn text n found front.length rest =
      .ok (((Iteration.splitAs n front.getLast? rest).map
        fun (source, _) => front.length + source.length).or found) := by
  induction rest generalizing front n found with
  | nil => rfl
  | cons octet rest ih =>
      have longer : octets text = (front ++ [octet]) ++ rest := by simp [whole]
      have later := ih longer (n.next octet)
      rw [List.length_append, List.length_singleton, List.getLast?_concat] at later
      rw [findAsIn, keywordAt_eq whole, ok_bind, later, Iteration.splitAs_cons]
      cases Iteration.splitAs (n.next octet) (some octet) rest with
      | none => split_ifs <;> rfl
      | some parts => simp [Nat.add_assoc, Nat.add_comm 1]

theorem findAs_eq (text : List Char) :
    findAs text = .ok ((Iteration.splitAs {} none text).map fun (source, _) =>
      utf8Length source) := by
  have found := findAsIn_eq (List.nil_append (octets text)).symm {} none
  rw [Option.or_none, List.getLast?_nil, Iteration.splitAs_octets, Option.map_map] at found
  refine found.trans (congrArg (fun length => Except.ok (Option.map length _))
    (funext fun parts => ?_))
  simp [utf8Length_eq]

/-- The sides of the word are cut out of the text where the search found it. -/
theorem sides_eq {text source binding : List Char}
    (found : Iteration.splitAs {} none text = some (source, binding)) :
    slice text 0 (utf8Length source) = .ok source ∧ sliceFrom text (utf8Length source + 2) =
      .ok binding := by
  have starts := StandsAt.start text
  obtain ⟨whole, -, -, -⟩ := Iteration.Keyword.of_splitAs found
  have inFront : StandsAt text 0 (source ++ 'a' :: 's' :: binding) := whole ▸ starts
  have cut := inFront.slice_eq
  rw [Nat.zero_add] at cut
  have behind := (inFront.advance.next (by decide)).next (by decide)
  rw [Nat.zero_add] at behind
  exact ⟨cut, behind.sliceFrom_eq⟩

theorem parse_eq (directive : String) (raw : List Char) :
    parse directive raw = .ok (Iteration.parse directive raw) := by
  rw [parse, unwrap_eq, ok_bind, findAs_eq, ok_bind, Iteration.parse]
  cases found : Iteration.splitAs {} none (ThemeTemplates.unwrap raw) with
  | none => rfl
  | some parts =>
      obtain ⟨sourceCut, bindingCut⟩ := sides_eq found
      simp only [Option.map_some, sourceCut, bindingCut, ok_bind]
      rfl

theorem parseLoop_eq (raw : List Char) : parseLoop raw = .ok (Iteration.parseLoop raw) := by
  rw [parseLoop, unwrap_eq, ok_bind, Iteration.parseLoop]
  split_ifs
  · rfl
  · rw [findAs_eq, ok_bind]
    cases found : Iteration.splitAs {} none (ThemeTemplates.unwrap raw) with
    | none => rfl
    | some parts =>
        obtain ⟨sourceCut, bindingCut⟩ := sides_eq found
        simp only [Option.map_some, sourceCut, bindingCut, ok_bind]
        rfl

/-! ### Iterations without parentheses -/

theorem StandsAt.stepsEnd_eq {text rest : List Char} {place : Nat} (h : StandsAt text place rest) :
    stepsEnd text place = .ok (place + utf8Length (spanSteps rest).1) := by
  induction rest using spanSteps.induct generalizing place with
  | case1 rest none =>
      have behind := (h.next (by decide)).countWhile_eq fun _ => Foreign.not_wordChar
      rw [stepsEnd, dif_pos ((h.octet?_eq_some_iff (by decide)).mpr rfl), behind, ok_bind,
        none, spanSteps, none]
      rfl
  | case2 rest c word found steps after split ih =>
      have behind := (h.next (by decide)).countWhile_eq fun _ => Foreign.not_wordChar
      have later := ih ((h.next (by decide)).dropWhile isWordChar)
      rw [found] at behind later
      have some : 0 < utf8Length (c :: word) := utf8Length_pos (List.cons_ne_nil c word)
      rw [stepsEnd, dif_pos ((h.octet?_eq_some_iff (by decide)).mpr rfl), behind, ok_bind,
        if_pos some, later, spanSteps, found]
      simp only [split]
      have total : utf8Length ('.' :: c :: word ++ steps) =
          1 + utf8Length (c :: word) + utf8Length steps := by
        rw [utf8Length_append, utf8Length_cons]
        rfl
      rw [total, ← Nat.add_assoc, ← Nat.add_assoc]
  | case3 rest other =>
      have noDot : octet? text place ≠ some '.' := by
        rw [Ne, h.octet?_eq_some_iff (by decide), List.head?_eq_some_iff]
        rintro ⟨name, same⟩
        exact other name same
      rw [stepsEnd, dif_neg noDot, spanSteps]
      · rfl
      · exact other

theorem StandsAt.bindingLength_variable {text rest : List Char} {place : Nat}
    (h : StandsAt text place ('$' :: rest)) :
    bindingLength text place = .ok (utf8Length ('$' :: rest.takeWhile isWordChar)) := by
  have word := (h.next (by decide)).countWhile_eq fun _ => Foreign.not_wordChar
  rw [bindingLength, if_pos ((h.octet?_eq_some_iff (by decide)).mpr rfl), word, ok_bind,
    utf8Length_cons]
  rfl

theorem StandsAt.bindingLength_piece {text rest : List Char} {place : Nat}
    (noVariable : ∀ name, rest = '$' :: name → False) (h : StandsAt text place rest) :
    bindingLength text place = .ok (utf8Length (rest.takeWhile fun c => !isAsciiBlank c)) := by
  have other : octet? text place ≠ some '$' := by
    rw [Ne, h.octet?_eq_some_iff (by decide), List.head?_eq_some_iff]
    rintro ⟨name, same⟩
    exact noVariable name same
  rw [bindingLength, if_neg other]
  exact h.countWhile_eq fun c foreign => by rw [foreign.not_asciiBlank, Bool.not_false]

theorem ok_guard {α β : Type} {stops goesOn : Prop} [Decidable stops] [Decidable goesOn]
    (opposite : stops ↔ ¬goesOn) {next : Unit → Option α} {size : α → β}
    {more : Except Trap (Option β)} (later : goesOn → more = .ok ((next ()).map size)) :
    (if stops then return none else more) = .ok ((guard goesOn >>= next).map size) := by
  by_cases holds : goesOn
  · rw [if_neg (by simpa [opposite] using holds), Iteration.guard_bind holds, later holds]
  · rw [if_pos (opposite.mpr holds), guard, if_neg holds]
    rfl

theorem nothing_iff (text : List Char) : utf8Length text = 0 ↔ ¬(!text.isEmpty) = true := by
  simp [utf8Length_eq_zero_iff]

/-- Goes on behind the sigil of an iteration without parentheses; `taken` stands in front. -/
def splitBareBehind (taken text : List Char) : Option (List Char × List Char) := do
  guard (text.head?.any isWordStart)
  let (name, text) := text.span isWordChar
  let (steps, text) := spanSteps text
  let (gap₁, text) := text.span isSpaceOrTab
  guard (!gap₁.isEmpty)
  let text ← ['a', 's'].isPrefixOf? text
  let (gap₂, text) := text.span isSpaceOrTab
  guard (!gap₂.isEmpty)
  let (binding, text) :=
    match text with
    | '$' :: rest => ('$' :: rest.takeWhile isWordChar, rest.dropWhile isWordChar)
    | _ => text.span fun c => !isAsciiBlank c
  guard (!binding.isEmpty)
  return (taken ++ name ++ steps ++ gap₁ ++ ['a', 's'] ++ gap₂ ++ binding, text)

def splitSigil (text : List Char) : List Char × List Char :=
  match text with
  | '$' :: rest => (['$'], rest)
  | _ => ([], text)

theorem splitBareIteration_eq (text : List Char) :
    splitBareIteration text = (guard (!(text.takeWhile isSpaceOrTab).isEmpty) >>= fun _ =>
      splitBareBehind (text.takeWhile isSpaceOrTab ++ (splitSigil (text.dropWhile isSpaceOrTab)).1)
        (splitSigil (text.dropWhile isSpaceOrTab)).2) := by
  unfold splitBareIteration
  rw [List.span_eq_takeWhile_dropWhile]
  rfl

theorem StandsAt.bareEnd_eq {text taken rest : List Char}
    (h : StandsAt text (utf8Length taken) rest) :
    bareEnd text (utf8Length taken) =
      .ok ((splitBareBehind taken rest).map fun (taken, _) => utf8Length taken) := by
  have wordLength : utf8Length ['a', 's'] = 2 := rfl
  unfold bareEnd splitBareBehind
  simp only [List.span_eq_takeWhile_dropWhile]
  refine ok_guard (by simp [h.any_octet? fun _ => Foreign.not_wordStart]) fun _ => ?_
  rw [h.countWhile_eq fun _ => Foreign.not_wordChar, ok_bind]
  have afterName := h.dropWhile isWordChar
  rw [afterName.stepsEnd_eq, ok_bind]
  obtain ⟨-, -, -, stepped⟩ := Iteration.spanSteps_spec (rest.dropWhile isWordChar)
  have afterSteps := (stepped ▸ afterName).advance
  rw [afterSteps.countWhile_eq fun _ => Foreign.not_spaceOrTab, ok_bind]
  refine ok_guard (nothing_iff _) fun _ => ?_
  have afterPath := afterSteps.dropWhile isSpaceOrTab
  rw [afterPath.sliceFrom_eq, ok_bind]
  cases keyword : ['a', 's'].isPrefixOf?
      ((spanSteps (rest.dropWhile isWordChar)).2.dropWhile isSpaceOrTab) with
  | none =>
      rw [if_pos (by simp [← List.isSome_isPrefixOf?_eq_isPrefixOf, keyword])]
      rfl
  | some side =>
      have whole := List.isPrefixOf?_eq_some_iff_append_eq.mp keyword
      have word : (['a', 's'].isPrefixOf
          ((spanSteps (rest.dropWhile isWordChar)).2.dropWhile isSpaceOrTab)) = true := by
        rw [← List.isSome_isPrefixOf?_eq_isPrefixOf, keyword]
        rfl
      have afterWord : StandsAt text (_ + 2) side := (whole ▸ afterPath).advance
      rw [if_neg (by simp [word]), Option.bind_eq_bind, Option.bind_some,
        afterWord.countWhile_eq fun _ => Foreign.not_spaceOrTab, ok_bind]
      refine ok_guard (nothing_iff _) fun _ => ?_
      have afterFront := afterWord.dropWhile isSpaceOrTab
      generalize measured : bindingLength text _ = length
      split
      case' h_1 name bound =>
        rw [bound] at afterFront
        have binding := afterFront.bindingLength_variable
      case' h_2 noVariable =>
        have binding := afterFront.bindingLength_piece noVariable
      all_goals
        rw [← measured, binding, ok_bind]
        refine ok_guard (nothing_iff _) fun _ => congrArg (Except.ok <| some ·) ?_
        simp only [utf8Length_append, wordLength]

theorem StandsAt.behindSigil {text gap rest : List Char} (h : StandsAt text (utf8Length gap) rest) :
    (if octet? text (utf8Length gap) = some '$' then utf8Length gap + 1 else utf8Length gap) =
        utf8Length (gap ++ (splitSigil rest).1) ∧
      StandsAt text (utf8Length (gap ++ (splitSigil rest).1)) (splitSigil rest).2 := by
  fun_cases splitSigil rest with
  | case1 rest =>
      have behind : StandsAt text (utf8Length gap + utf8Length ['$']) rest := h.advance
      rw [if_pos ((h.octet?_eq_some_iff (by decide)).mpr rfl), utf8Length_append]
      exact ⟨rfl, behind⟩
  | case2 rest noSigil =>
      have other : octet? text (utf8Length gap) ≠ some '$' := by
        rw [Ne, h.octet?_eq_some_iff (by decide), List.head?_eq_some_iff]
        rintro ⟨name, same⟩
        exact noSigil name same
      rw [if_neg other, List.append_nil]
      exact ⟨rfl, h⟩

theorem bareLength_eq (text : List Char) : bareLength text = .ok (bareIterationLength text) := by
  have starts := StandsAt.start text
  rw [bareLength, bareIterationLength, splitBareIteration_eq,
    starts.countWhile_eq fun _ => Foreign.not_spaceOrTab, ok_bind]
  refine ok_guard (nothing_iff _) fun _ => ?_
  have afterGap := starts.dropWhile isSpaceOrTab
  rw [Nat.zero_add] at afterGap
  obtain ⟨place, behind⟩ := afterGap.behindSigil
  rw [place]
  exact behind.bareEnd_eq

end ThemeTemplates.Offset
