import ThemeTemplates.Proofs.Offset.Cut
import ThemeTemplates.Proofs.Text.Separation

/-!
# Brackets by offsets

Readers that find the end of a bracketed list, take enclosing parentheses off and cut a text at its
separators by offsets. None of them is trapped, and they answer what the readers of characters
answer.
-/

namespace ThemeTemplates.Offset

/-- The offset of the bracket that leaves nothing open. A closing bracket with nothing open ends the
search. -/
def closeIn (n : Nesting) : List (Nat × Char) → Option Nat
  | [] => none
  | (offset, c) :: rest =>
    if n.quotation == .outside && isClosing c then
      if n.depth = 0 then none
      else if n.depth = 1 then some offset
      else closeIn (n.next c) rest
    else closeIn (n.next c) rest

def matchingClose (text : List Char) (opening : Nat) : Option Nat :=
  closeIn {} ((charOffsets 0 text).dropWhile (·.1 < opening))

def unwrapTrimmed (text : List Char) : Except Trap (List Char) :=
  if text.head? = some '(' then do
    let last ← minus (utf8Length text) 1
    if matchingClose text 0 = some last then
      match _cut : slice text 1 last with
      | .error trap => .error trap
      | .ok inner => unwrapTrimmed (trim inner)
    else return text
  else return text
termination_by text.length
decreasing_by
  obtain ⟨before, after, rfl, front, -⟩ := slice_eq_ok_iff.mp _cut
  have nonempty : 0 < before.length := by
    cases before with
    | nil => cases front
    | cons c before => simp
  have := length_trim_le inner
  simp only [List.length_append]
  omega

def unwrap (text : List Char) : Except Trap (List Char) :=
  unwrapTrimmed (trim text)

/-- The trimmed parts of a text between its separators. `start` is where the part that is being read
begins, `parts` are those in front of it. -/
def splitParts (text : List Char) (separator : Char) (n : Nesting) (start : Nat)
    (parts : List (List Char)) :
    List (Nat × Char) → Except Trap (List (List Char))
  | [] => do
    let last ← sliceFrom text start
    if (trim last).isEmpty && parts.isEmpty then return parts else return parts ++ [trim last]
  | (offset, c) :: rest =>
    if n.atTop && c == separator && !(isQuote c || isOpening c || isClosing c) then do
      let part ← slice text start offset
      splitParts text separator n (offset + c.utf8Size) (parts ++ [trim part]) rest
    else splitParts text separator (n.next c) start parts rest

/-- The trimmed parts of a text between separators outside literals and brackets. -/
def splitTopLevel (separator : Char) (text : List Char) : Except Trap (List (List Char)) :=
  splitParts text separator {} 0 [] (charOffsets 0 text)

/-! ### The end of a list -/

theorem utf8Size_of_closing {c : Char} (closing : isClosing c = true) : c.utf8Size = 1 := by
  simp only [isClosing, Bool.or_eq_true, beq_iff_eq] at closing
  rcases closing with (rfl | rfl) | rfl <;> rfl

theorem utf8Length_list (inner : List Char) {close : Char} (closing : isClosing close = true) :
    utf8Length ('(' :: (inner ++ [close])) = 1 + utf8Length inner + 1 := by
  rw [utf8Length_cons, utf8Length_append, utf8Length_singleton, utf8Size_of_closing closing]
  exact (Nat.add_assoc _ _ _).symm

theorem opened_next {n : Nesting} {c : Char} (opened : 0 < n.depth)
    (goesOn : ¬(n.quotation == .outside && isClosing c && n.depth == 1) = true) :
      0 < (n.next c).depth := by
  obtain ⟨_ | ⟨mark, escaped⟩, depth⟩ := n
  · simp only [Nesting.next]
    split_ifs with quote opening closing
    · exact opened
    · exact Nat.succ_pos depth
    · have more : depth ≠ 1 := by simpa [closing] using goesOn
      have open' : 0 < depth := opened
      show 0 < depth - 1
      omega
    · exact opened
  · exact opened

theorem closeIn_eq {n : Nesting} (opened : 0 < n.depth) (offset : Nat) (text : List Char) :
    closeIn n (charOffsets offset text) =
      (splitAtClose n text).map fun (inner, _, _) => offset + utf8Length inner := by
  induction text generalizing n offset with
  | nil => rfl
  | cons c rest ih =>
      have nonzero : n.depth ≠ 0 := by omega
      have found : closeIn n (charOffsets offset (c :: rest)) =
          if (n.quotation == .outside && isClosing c && n.depth == 1) = true then some offset
          else closeIn (n.next c) (charOffsets (offset + c.utf8Size) rest) := by
        simp only [charOffsets, closeIn, nonzero, if_false, Bool.and_eq_true, beq_iff_eq]
        split_ifs <;> simp_all
      rw [found, splitAtClose]
      split_ifs with here
      · rfl
      · rw [ih (opened_next opened here), Option.map_map]
        refine congrArg (Option.map · _) (funext fun cut => ?_)
        simp only [Function.comp_apply, utf8Length_cons, Nat.add_assoc]

theorem StandsAt.matchingClose_eq {text inside : List Char} {opening : Nat}
    (h : StandsAt text opening ('(' :: inside)) :
    matchingClose text opening = (splitAtClose { depth := 1 } inside).map
      fun (inner, _, _) => opening + 1 + utf8Length inner := by
  rw [matchingClose, h.dropWhile_charOffsets, charOffsets]
  exact closeIn_eq Nat.one_pos (opening + 1) inside

/-! ### Enclosing parentheses -/

theorem unwrapTrimmed_of_some {text inner : List Char} (found : unwrapOnce text = some inner) :
    unwrapTrimmed text = unwrapTrimmed (trim inner) := by
  obtain ⟨close, rfl, closing, contained⟩ := unwrapOnce_eq_some_iff.mp found
  have length := utf8Length_list inner closing
  have last : minus (1 + utf8Length inner + 1) 1 = .ok (1 + utf8Length inner) := by
    rw [minus, if_pos (by omega), Nat.add_sub_cancel]
  have closed : splitAtClose { depth := 1 } (inner ++ [close]) = some (inner, close, []) :=
    splitAtClose_of_run? contained closing []
  have starts : StandsAt ('(' :: (inner ++ [close])) 0 ('(' :: (inner ++ [close])) := .start _
  have cut : slice ('(' :: (inner ++ [close])) 1 (1 + utf8Length inner) = .ok inner :=
    (starts.next (by decide)).slice_eq
  rw [unwrapTrimmed, if_pos (by rfl), length, last, ok_bind, starts.matchingClose_eq, closed,
    if_pos (by simp)]
  split
  · next failed => cases cut.symm.trans failed
  · next inner' cut' =>
      cases cut.symm.trans cut'
      rfl

theorem unwrapTrimmed_of_none {text : List Char} (missing : unwrapOnce text = none) :
    unwrapTrimmed text = .ok text := by
  rw [unwrapTrimmed]
  split_ifs with parenthesis
  · obtain ⟨inside, rfl⟩ : ∃ inside, text = '(' :: inside := List.head?_eq_some_iff.mp parenthesis
    have length : utf8Length ('(' :: inside) = utf8Length inside + 1 := by
      rw [utf8Length_cons, Nat.add_comm]
      rfl
    have last : minus (utf8Length inside + 1) 1 = .ok (utf8Length inside) := by
      rw [minus, if_pos (by omega), Nat.add_sub_cancel]
    have notLast : matchingClose ('(' :: inside) 0 ≠ some (utf8Length inside) := by
      rw [(StandsAt.start _).matchingClose_eq, Ne, Option.map_eq_some_iff]
      rintro ⟨⟨inner, close, after⟩, closed, atEnd⟩
      have place : 0 + 1 + utf8Length inner = utf8Length inside := atEnd
      obtain ⟨whole, closing, -⟩ :=
        splitAtClose_spec closed (show Nesting.depth { depth := 1 } = 0 + 1 from rfl)
      have sizes := congrArg utf8Length whole
      rw [utf8Length_append, utf8Length_cons, utf8Size_of_closing closing] at sizes
      obtain rfl : after = [] := utf8Length_eq_zero_iff.mp (by omega)
      simp [unwrapOnce, closed] at missing
    rw [length, last, ok_bind, if_neg notLast]
    rfl
  · rfl

theorem unwrap_eq (text : List Char) : unwrap text = .ok (ThemeTemplates.unwrap text) := by
  unfold unwrap
  induction text using ThemeTemplates.unwrap.induct with
  | case1 text inner found ih => rw [unwrapTrimmed_of_some found, ih, unwrap_of_some found]
  | case2 text missing => rw [unwrapTrimmed_of_none missing, unwrap_of_none missing]

/-! ### Parts between separators -/

theorem splitParts_eq {text pending rest : List Char} {start : Nat}
    (h : StandsAt text start (pending ++ rest)) (separator : Char) (n : Nesting)
    (parts : List (List Char)) :
    ∃ first others, splitPieces separator n rest = first :: others ∧
      splitParts text separator n start parts (charOffsets (start + utf8Length pending) rest) =
        .ok (if parts ++ trim (pending ++ first) :: others.map trim = [[]] then []
          else parts ++ trim (pending ++ first) :: others.map trim) := by
  induction rest generalizing n start pending parts with
  | nil =>
      refine ⟨[], [], rfl, ?_⟩
      rw [List.append_nil] at h ⊢
      rw [charOffsets, splitParts, h.sliceFrom_eq, ok_bind]
      cases parts <;> cases trim pending <;> simp <;> rfl
  | cons c rest ih =>
      simp only [charOffsets, splitParts, splitPieces]
      split_ifs with here
      · have behind : StandsAt text (start + utf8Length pending + c.utf8Size) ([] ++ rest) :=
          h.advance.tail
        obtain ⟨first, others, found, later⟩ := ih behind n (parts ++ [trim pending])
        refine ⟨[], splitPieces separator n rest, rfl, ?_⟩
        rw [h.slice_eq, ok_bind, found]
        simpa using later
      · have longer : StandsAt text start ((pending ++ [c]) ++ rest) := by simpa using h
        obtain ⟨first, others, found, later⟩ := ih longer (n.next c) parts
        refine ⟨c :: first, others, by rw [found], ?_⟩
        simpa [utf8Length_singleton, Nat.add_assoc] using later

theorem splitTopLevel_eq (separator : Char) (text : List Char) :
    splitTopLevel separator text = .ok (ThemeTemplates.splitTopLevel separator text) := by
  have starts : StandsAt text 0 ([] ++ text) := .start text
  obtain ⟨first, others, found, split⟩ := splitParts_eq starts separator {} []
  rw [ThemeTemplates.splitTopLevel_eq, found]
  exact split

end ThemeTemplates.Offset
