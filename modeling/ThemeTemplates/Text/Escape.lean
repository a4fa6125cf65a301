/-!
# Escapes

What a backslash and the characters after it stand for inside a quoted text: a single letter for a
control character, or `u` with four hexadecimal digits for a UTF-16 unit.
-/

namespace ThemeTemplates

def hexValue? (c : Char) : Option Nat :=
  if c.isDigit then some (c.toNat - '0'.toNat)
  else if 'a' ≤ c && c ≤ 'f' then some (c.toNat - 'a'.toNat + 10)
  else if 'A' ≤ c && c ≤ 'F' then some (c.toNat - 'A'.toNat + 10)
  else none

def readHex4 : List Char → Option (Nat × List Char)
  | a :: b :: c :: d :: rest => do
    let a ← hexValue? a
    let b ← hexValue? b
    let c ← hexValue? c
    let d ← hexValue? d
    return (((a * 16 + b) * 16 + c) * 16 + d, rest)
  | _ => none

/-- Reads a character written as one UTF-16 unit, or two of a surrogate pair, given how a unit is
read. -/
def readUnicodeEscape (readUnit : List Char → Option (Nat × List Char)) (chars : List Char) :
    Option (Char × List Char) := do
  let (unit, rest) ← readUnit chars
  if 0xD800 ≤ unit && unit < 0xDC00 then
    match rest with
    | '\\' :: 'u' :: rest =>
      let (low, rest) ← readUnit rest
      guard (0xDC00 ≤ low && low < 0xE000)
      return (Char.ofNat (0x10000 + (unit - 0xD800) * 0x400 + (low - 0xDC00)), rest)
    | _ => none
  else
    guard (!(0xDC00 ≤ unit && unit < 0xE000))
    return (Char.ofNat unit, rest)

def simpleEscape? : Char → Option Char
  | '"' => some '"'
  | '\\' => some '\\'
  | '/' => some '/'
  | 'b' => some '\x08'
  | 'f' => some '\x0c'
  | 'n' => some '\n'
  | 'r' => some '\r'
  | 't' => some '\t'
  | _ => none

end ThemeTemplates
