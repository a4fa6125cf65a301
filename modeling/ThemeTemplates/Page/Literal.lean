import ThemeTemplates.Decimal.Reader
import ThemeTemplates.Page.Number
import ThemeTemplates.Text.Blank
import ThemeTemplates.Text.Escape

/-!
# Literals of a page

Texts in quotation marks and numbers as they are written inside tags. Each reader takes what belongs
to the literal and says what it stands for, or what is wrong with it.
-/

namespace ThemeTemplates

inductive PageFlaw where
  | malformed (reason : String)
  | badEscape
deriving DecidableEq, Repr

namespace Literal

/-! ### Texts -/

/-- Cuts a literal at its closing mark: its inside, escapes as written, and what follows it. -/
def splitText (mark : Char) : List Char → Option (List Char × List Char)
  | [] => none
  | '\\' :: c :: rest =>
    (splitText mark rest).map fun (inside, after) => ('\\' :: c :: inside, after)
  | c :: rest =>
    if c == mark then some ([], rest)
    else (splitText mark rest).map fun (inside, after) => (c :: inside, after)

/-- The number that hexadecimal digits stand for; a plus sign may stand in front of them. -/
def hexNumber? (written : List Char) : Option Nat := do
  let digits :=
    match written with
    | '+' :: digits => digits
    | digits => digits
  guard !digits.isEmpty
  digits.foldlM (fun n c => do return n * 16 + (← hexValue? c)) 0

def readHex (count : Nat) (chars : List Char) : Option (Nat × List Char) := do
  guard (count ≤ chars.length)
  return (← hexNumber? (chars.take count), chars.drop count)

/-- The text of a literal, given its inside and a bound on the length of it. A backslash that begins
no escape stands for itself. -/
def unescape : Nat → List Char → Option (List Char)
  | 0, _ => some []
  | _, [] => some []
  | bound + 1, '\\' :: 'u' :: rest => do
    let (c, rest) ← readUnicodeEscape (readHex 4) rest
    return c :: (← unescape bound rest)
  | bound + 1, '\\' :: 'x' :: rest => do
    let (code, rest) ← readHex 2 rest
    return Char.ofNat code :: (← unescape bound rest)
  | bound + 1, '\\' :: c :: rest => do
    let read :=
      match if c == '\'' then some c else simpleEscape? c with
      | some c => [c]
      | none => ['\\', c]
    return read ++ (← unescape bound rest)
  | bound + 1, c :: rest => do
    guard (c != '\\')
    return c :: (← unescape bound rest)

def readText (mark : Char) (chars : List Char) : Except PageFlaw String × List Char :=
  match splitText mark chars with
  | none => (.error (.malformed "unexpected end of string"), [])
  | some (inside, after) =>
    match unescape inside.length inside with
    | some text => (.ok (String.ofList text), after)
    | none => (.error .badEscape, after)

/-! ### Numbers -/

def intBound : Nat := Nat.pow 2 128

def plainDigits (written : List Char) : Except PageFlaw (List Char) :=
  if written.getLast? == some '_' then .error (.malformed "'_' may not occur at end of number")
  else .ok (written.filter (· != '_'))

def wholeNumber (radix : Nat) (written : List Char) : Except PageFlaw Number := do
  let digits ← plainDigits written
  let values := digits.filterMap hexValue?
  let value := values.foldl (fun n digit => n * radix + digit) 0
  if !values.isEmpty && values.all (· < radix) && value < intBound then return .given value
  else throw (.malformed "invalid integer (too large)")

def floatNumber (written : List Char) : Except PageFlaw Number := do
  match Decimal.readFloat? (← plainDigits written) with
  | some x => return .float x
  | none => throw (.malformed "invalid float")

inductive DecimalPart where
  | whole
  | fraction
  | mark
  | exponent
deriving DecidableEq

def DecimalPart.next? (part : DecimalPart) (c : Char) : Option DecimalPart :=
  if c == '_' then some part
  else
    match part with
    | whole =>
      if c == '.' then some fraction else if c == 'e' || c == 'E' then some mark
      else if c.isDigit then some whole else none
    | fraction =>
      if c == 'e' || c == 'E' then some mark else if c.isDigit then some fraction else none
    | mark => if c == '+' || c == '-' || c.isDigit then some exponent else none
    | exponent => if c.isDigit then some exponent else none

/-- Whether a text begins with the name of a field. What may be the mark of an exponent does not
count as one. -/
def startsField (chars : List Char) : Bool :=
  chars.head?.any fun c => isWordStart c && c != 'e' && c != 'E'

/-- Cuts a text behind the decimal it begins with. A point in front of a field is no part of it. -/
def splitDecimal (part : DecimalPart) : List Char → DecimalPart × List Char × List Char
  | [] => (part, [], [])
  | c :: rest =>
    if part = .whole && c == '.' && startsField rest then (part, [], c :: rest)
    else
      match part.next? c with
      | some part =>
        let (last, taken, after) := splitDecimal part rest
        (last, c :: taken, after)
      | none => (part, [], c :: rest)

def radix? (c : Char) : Option Nat :=
  if c == 'x' || c == 'X' then some 16
  else if c == 'o' || c == 'O' then some 8
  else if c == 'b' || c == 'B' then some 2
  else none

def readDecimal (chars : List Char) : Except PageFlaw Number × List Char :=
  let (part, taken, after) := splitDecimal .whole chars
  (if part = .whole then wholeNumber 10 taken else floatNumber taken, after)

def readInRadix (radix : Nat) (chars : List Char) : Except PageFlaw Number × List Char :=
  let isPart := fun (c : Char) =>
    c.isDigit || c == '_' || (radix == 16 && (hexValue? c).isSome)
  (wholeNumber radix (chars.takeWhile isPart), chars.dropWhile isPart)

def readNumber (chars : List Char) : Except PageFlaw Number × List Char :=
  match chars with
  | '0' :: c :: rest =>
    match radix? c with
    | some radix => readInRadix radix rest
    | none => readDecimal chars
  | chars => readDecimal chars

end Literal

end ThemeTemplates
