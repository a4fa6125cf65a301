import ThemeTemplates.Data.Basic
import ThemeTemplates.Decimal.Reader
import ThemeTemplates.Text.Blank
import ThemeTemplates.Text.Escape

/-!
# Settings from the environment

A variable whose name starts with `SNAP_`, in any case, sets a key; two underscores or a dot in the
rest of the name lead into a section. The value is read as a truth value, a number, a list or a
record if it is written as one, and is a text otherwise.
-/

namespace ThemeTemplates

namespace Environment

abbrev Reader := StateT (List Char) Option

private def skip (s : String) : Reader Bool := do
  match s.toList.isPrefixOf? (← get) with
  | some rest =>
    set rest
    return true
  | none => return false

private def blanks : Reader Unit :=
  modify fun text => text.dropWhile isAsciiBlank

private def takeWhile (p : Char → Bool) : Reader (List Char) := do
  let text ← get
  set (text.dropWhile p)
  return text.takeWhile p

private def isSeparator (c : Char) : Bool :=
  c == ',' || c == '{' || c == '}' || c == '[' || c == ']'

private def isKeyChar (c : Char) : Bool :=
  c.isAlphanum || c == '_' || c == '-'

private def escapedChar : List Char → Option (Char × List Char)
  | 'u' :: rest => do
    let (n, rest) ← readHex4 rest
    guard n.isValidChar
    return (Char.ofNat n, rest)
  | 'U' :: rest => do
    let (high, rest) ← readHex4 rest
    let (low, rest) ← readHex4 rest
    let n := high * Nat.pow 2 16 + low
    guard n.isValidChar
    return (Char.ofNat n, rest)
  | '/' :: _ => none
  | c :: rest => (simpleEscape? c).map fun c => (c, rest)
  | [] => none

private def splitQuoted : List Char → Option (List Char × List Char)
  | [] => none
  | '"' :: rest => some ([], rest)
  | '\\' :: c :: rest =>
    (splitQuoted rest).map fun (inside, after) => ('\\' :: c :: inside, after)
  | c :: rest => (splitQuoted rest).map fun (inside, after) => (c :: inside, after)

private def takeBytes : Nat → List Char → List Char
  | bytes, c :: rest =>
    if c.utf8Size ≤ bytes then c :: takeBytes (bytes - c.utf8Size) rest else []
  | _, [] => []

/-- Reads a text from its first escape on, given a bound on the length of it. -/
private def unescape : Nat → List Char → Option (List Char)
  | 0, _ => some []
  | _, [] => some []
  | bound + 1, '\\' :: rest => do
    let (c, rest) ← escapedChar rest
    return c :: (← unescape bound rest)
  | bound + 1, c :: rest => do
    guard (c == '\t' || (0x20 ≤ c.toNat && c.toNat != 0x7f))
    return c :: (← unescape bound rest)

/-- Reads a quoted text after its opening mark. Of what stands in front of the first escape, as many
bytes are kept as there are characters. -/
private def quotedText : Reader String := do
  let (inside, after) ← splitQuoted (← get)
  set after
  let (plain, rest) := inside.span (· != '\\')
  discard (unescape plain.length plain)
  let escaped ← unescape rest.length rest
  let plain := if rest.isEmpty then plain else takeBytes plain.length plain
  return String.ofList (plain ++ escaped)

private def dropSign (text : List Char) : Bool × List Char :=
  match text with
  | '-' :: rest => (true, rest)
  | '+' :: rest => (false, rest)
  | text => (false, text)

private def float? (word : List Char) : Option Float := do
  let (negative, digits) := dropSign word
  guard (digits.any Char.isDigit && digits.contains '.')
  guard (digits.head?.any fun c => c.isDigit || c == '.')
  guard (digits.all fun c => c.isDigit || c == '.' || c == 'e' || c == 'E' || c == '+' || c == '-')
  let (whole, rest) := digits.span Char.isDigit
  let fraction := (rest.drop 1).takeWhile Char.isDigit
  guard (!(whole.isEmpty && fraction.isEmpty))
  let after := (rest.drop 1).dropWhile Char.isDigit
  guard (after.isEmpty || after.head? == some 'e' || after.head? == some 'E')
  let x ← Decimal.readFloat? digits
  return if negative then -x else x

private def int? (word : List Char) : Option Int := do
  let (negative, digits) := dropSign word
  guard (!digits.isEmpty && digits.all Char.isDigit)
  let n := Int.ofNat (Decimal.natOfDigits digits)
  let n := if negative then -n else n
  guard (-(Int.pow 2 63) ≤ n && n < Int.pow 2 64)
  return n

private def wordValue (word : List Char) : Data :=
  match if word.contains '.' then float? word else none with
  | some x => .float x
  | none =>
    match int? word with
    | some n => .int n
    | none => .text (String.ofList word)

private def items {α : Type} (close : String) (item : Reader α) : Nat → Reader (List α)
  | 0 => failure
  | steps + 1 => do
    if ← skip close then return []
    let first ← item
    if ← skip "," then return first :: (← items close item steps)
    else
      guard (← skip close)
      return [first]

private def entry (value : Reader Data) : Reader (String × Data) := do
  blanks
  let key ←
    if ← skip "\"" then quotedText
    else
      let key ← takeWhile isKeyChar
      guard (!key.isEmpty)
      pure (String.ofList key)
  blanks
  guard (← skip "=")
  return (key, ← value)

private def quotedChar : Reader Data := do
  match ← get with
  | c :: '\'' :: rest =>
    set rest
    return .text c.toString
  | _ => failure

/-- Reads a value without the blanks around it, given how the values inside it are read. -/
private def bareValue (nested : Reader Data) : Reader Data := do
  if ← skip "true" then return .bool true
  else if ← skip "false" then return .bool false
  else if ← skip "\x7b" then
    return .ofFields (← items "\x7d" (entry nested) ((← get).length + 1))
  else if ← skip "[" then return .list (← items "]" nested ((← get).length + 1))
  else if ← skip "\"" then return .text (← quotedText)
  else if ← skip "'" then quotedChar
  else return wordValue (trim (← takeWhile fun c => !isSeparator c))

private def value : Nat → Reader Data
  | 0 => failure
  | levels + 1 => do
    blanks
    let data ← bareValue (value levels)
    blanks
    return data

/-- The value of a variable: what it is written as, or its text as it stands. -/
def parse (written : String) : Data :=
  match (value (written.length + 1)).run written.toList with
  | some (data, []) => data
  | _ => .text written

def variablePrefix : List Char := "snap_".toList

def keyPath : List Char → List (List Char)
  | [] => [[]]
  | '_' :: '_' :: rest => [] :: keyPath rest
  | c :: rest =>
    if c == '.' then [] :: keyPath rest
    else
      match keyPath rest with
      | [] => [[c]]
      | part :: later => (c :: part) :: later

def nest (data : Data) : List String → Data
  | [] => data
  | key :: rest => .record [(key, nest data rest)]

/-- What one variable sets, if it is a setting. No part of its path may be empty. -/
def setting? (name written : String) : Option Data := do
  let rest ← variablePrefix.isPrefixOf? ((trim name.toList).map Char.toLower)
  let path := keyPath (trim rest)
  guard (!path.any List.isEmpty)
  return nest (parse written) (path.map String.ofList)

end Environment

end ThemeTemplates
