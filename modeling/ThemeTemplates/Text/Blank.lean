/-!
# Blank characters and word characters

Two notions of white space are in use: the Unicode property, by which texts are trimmed, and the
five ASCII blanks that may surround a keyword. Words are ASCII only, so a letter outside ASCII ends
a name.
-/

namespace ThemeTemplates

/-- The ranges of code points with the Unicode property `White_Space`. -/
def blankRanges : List (Nat × Nat) :=
  [(0x9, 0xD), (0x20, 0x20), (0x85, 0x85), (0xA0, 0xA0), (0x1680, 0x1680), (0x2000, 0x200A),
    (0x2028, 0x2029), (0x202F, 0x202F), (0x205F, 0x205F), (0x3000, 0x3000)]

/-- White space in the sense of Unicode. -/
def isBlank (c : Char) : Bool :=
  blankRanges.any fun range => range.1 ≤ c.toNat && c.toNat ≤ range.2

def isSpaceOrTab (c : Char) : Bool :=
  c == ' ' || c == '\t'

def isAsciiBlank (c : Char) : Bool :=
  isSpaceOrTab c || c == '\n' || c == '\x0c' || c == '\r'

def isWordStart (c : Char) : Bool :=
  c.isAlpha || c == '_'

def isWordChar (c : Char) : Bool :=
  c.isAlphanum || c == '_'

def stripEnds (p : Char → Bool) (text : List Char) : List Char :=
  ((text.dropWhile p).reverse.dropWhile p).reverse

def trim (text : List Char) : List Char :=
  stripEnds isBlank text

def lineBreaks (text : List Char) : Nat :=
  text.count '\n'

def utf8Length (text : List Char) : Nat :=
  text.foldl (fun length c => length + c.utf8Size) 0

theorem lineBreaks_append (first second : List Char) :
    lineBreaks (first ++ second) = lineBreaks first + lineBreaks second :=
  List.count_append ..

theorem lineBreaks_eq_zero {text : List Char} (h : '\n' ∉ text) : lineBreaks text = 0 :=
  List.count_eq_zero.mpr h

theorem isUpper_eq (c : Char) : c.isUpper = decide (c.val ≥ 'A'.val ∧ c.val ≤ 'Z'.val) := rfl

theorem isLower_eq (c : Char) :
    c.isLower = (decide (c.val ≥ 'a'.val) && decide (c.val ≤ 'z'.val)) := rfl

theorem isAlpha_eq (c : Char) : c.isAlpha = (c.isUpper || c.isLower) := rfl

theorem isSpaceOrTab_isAsciiBlank {c : Char} (h : isSpaceOrTab c = true) :
    isAsciiBlank c = true := by
  simp [isAsciiBlank, h]

theorem not_isAsciiBlank_of_isWordChar {c : Char} (h : isWordChar c = true) :
    isAsciiBlank c = false := by
  rw [← Bool.not_eq_true]
  intro blank
  simp only [isAsciiBlank, isSpaceOrTab, Bool.or_eq_true, beq_iff_eq] at blank
  rcases blank with (((rfl | rfl) | rfl) | rfl) | rfl <;> cases h

theorem isWordStart_isWordChar {c : Char} (h : isWordStart c = true) : isWordChar c = true := by
  simp only [isWordStart, isWordChar, Char.isAlphanum, Bool.or_eq_true] at h ⊢
  rcases h with h | h
  · exact .inl (.inl h)
  · exact .inr h

theorem length_dropWhile_le (p : Char → Bool) (text : List Char) :
    (text.dropWhile p).length ≤ text.length :=
  (List.dropWhile_suffix p).length_le

theorem length_stripEnds_le (p : Char → Bool) (text : List Char) :
    (stripEnds p text).length ≤ text.length := by
  have inner := length_dropWhile_le p text
  have outer := length_dropWhile_le p (text.dropWhile p).reverse
  simp only [List.length_reverse] at outer
  simp only [stripEnds, List.length_reverse]
  omega

theorem length_trim_le (text : List Char) : (trim text).length ≤ text.length :=
  length_stripEnds_le isBlank text

end ThemeTemplates
