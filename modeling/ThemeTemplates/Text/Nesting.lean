import ThemeTemplates.Text.Blank
import ThemeTemplates.Text.Quotation

/-!
# Brackets around a text and parts between separators

Argument lists are taken apart without looking at what they mean: only string literals and brackets
count, and all three kinds of bracket count alike. `unwrap` takes the parentheses off that enclose a
whole text, `splitTopLevel` cuts a text at separators outside literals and brackets.
-/

namespace ThemeTemplates

def isOpening (c : Char) : Bool :=
  c == '(' || c == '[' || c == '{'

def isClosing (c : Char) : Bool :=
  c == ')' || c == ']' || c == '}'

/-- Where a reader stands: in or out of a literal, and how many brackets are open. -/
structure Nesting where
  quotation : Quotation := .outside
  depth : Nat := 0
deriving DecidableEq, Repr

namespace Nesting

/-- The state after one more character. A closing bracket that closes nothing is passed over. -/
def next (n : Nesting) (c : Char) : Nesting :=
  match n.quotation with
  | .inside _ _ => { n with quotation := n.quotation.next c }
  | .outside =>
    if isQuote c then { n with quotation := .inside c false }
    else if isOpening c then { n with depth := n.depth + 1 }
    else if isClosing c then { n with depth := n.depth - 1 }
    else n

def after (n : Nesting) (text : List Char) : Nesting :=
  text.foldl next n

def atTop (n : Nesting) : Bool :=
  n.quotation == .outside && n.depth == 0

end Nesting

/-- Cuts a text at the bracket that closes the outermost open one: what stands before it, the
bracket, and what follows. -/
def splitAtClose (n : Nesting) : List Char → Option (List Char × Char × List Char)
  | [] => none
  | c :: rest =>
    if n.quotation == .outside && isClosing c && n.depth == 1 then some ([], c, rest)
    else (splitAtClose (n.next c) rest).map fun (inner, close, after) => (c :: inner, close, after)

/-- The content of a text that is one bracketed list: a parenthesis first, and the bracket that
closes it last. -/
def unwrapOnce : List Char → Option (List Char)
  | '(' :: rest =>
    match splitAtClose { depth := 1 } rest with
    | some (inner, _, []) => some inner
    | _ => none
  | _ => none

theorem length_of_splitAtClose {n : Nesting} {text inner after : List Char} {close : Char}
    (h : splitAtClose n text = some (inner, close, after)) :
    text.length = inner.length + after.length + 1 := by
  induction text generalizing n inner with
  | nil => simp [splitAtClose] at h
  | cons c rest ih =>
      simp only [splitAtClose] at h
      split at h
      · simp only [Option.some.injEq, Prod.mk.injEq] at h
        obtain ⟨rfl, rfl, rfl⟩ := h
        simp
      · simp only [Option.map_eq_some_iff, Prod.exists, Prod.mk.injEq] at h
        obtain ⟨inner', close', after', found, rfl, rfl, rfl⟩ := h
        have := ih found
        simp only [List.length_cons]
        omega

theorem length_lt_of_unwrapOnce {text inner : List Char} (h : unwrapOnce text = some inner) :
    inner.length < text.length := by
  simp only [unwrapOnce] at h
  split at h
  · split at h
    · next found =>
        have := length_of_splitAtClose found
        simp only [Option.some.injEq] at h
        subst h
        simp only [List.length_cons]
        omega
    · simp at h
  · simp at h

def unwrap (text : List Char) : List Char :=
  match _found : unwrapOnce (trim text) with
  | some inner => unwrap inner
  | none => trim text
termination_by text.length
decreasing_by
  have := length_lt_of_unwrapOnce _found
  have := length_trim_le text
  omega

theorem unwrap_of_some {text inner : List Char} (found : unwrapOnce (trim text) = some inner) :
    unwrap text = unwrap inner := by
  rw [unwrap.eq_def]
  split
  · next found' =>
      cases found.symm.trans found'
      rfl
  · next missing => cases found.symm.trans missing

theorem unwrap_of_none {text : List Char} (missing : unwrapOnce (trim text) = none) :
    unwrap text = trim text := by
  rw [unwrap.eq_def]
  split
  · next found => cases missing.symm.trans found
  · rfl

/-- The parts between the separators outside literals and brackets, as they stand. A quotation mark
or a bracket never separates. -/
def splitPieces (separator : Char) (n : Nesting) : List Char → List (List Char)
  | [] => [[]]
  | c :: rest =>
    if n.atTop && c == separator && !(isQuote c || isOpening c || isClosing c) then
      [] :: splitPieces separator n rest
    else
      match splitPieces separator (n.next c) rest with
      | [] => [[c]]
      | piece :: pieces => (c :: piece) :: pieces

/-- The trimmed parts of a text between separators; a blank text without a separator has none. -/
def splitTopLevel (separator : Char) (text : List Char) : List (List Char) :=
  match (splitPieces separator {} text).map trim with
  | [[]] => []
  | parts => parts

end ThemeTemplates
