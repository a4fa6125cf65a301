import ThemeTemplates.Data.Basic
import ThemeTemplates.Decimal.Notation

/-!
# Site data as text

The compact interchange form, without blanks between its tokens, and the text of a single value.
-/

namespace ThemeTemplates

namespace Data

/-- Numbers from 0.00001 up to, but not including, 10 ^ 16 are positional. A number that is not
finite has no interchange form and is written as null. -/
def floatNotation : FloatNotation where
  positional := fun leading => -5 ≤ leading && leading < 16
  plus := "+"
  nan := "null"
  infinity := "null"

private def hexDigit (n : Nat) : Char :=
  (Nat.toDigits 16 n).headD '0'

private def escapeChar (c : Char) : List Char :=
  if c == '"' then ['\\', '"']
  else if c == '\\' then ['\\', '\\']
  else if c == '\n' then ['\\', 'n']
  else if c == '\r' then ['\\', 'r']
  else if c == '\t' then ['\\', 't']
  else if c == '\x08' then ['\\', 'b']
  else if c == '\x0c' then ['\\', 'f']
  else if c.toNat < 0x20 then
    ['\\', 'u', '0', '0', hexDigit (c.toNat / 16), hexDigit (c.toNat % 16)]
  else [c]

def quoteText (s : String) : String :=
  String.ofList ('"' :: (s.toList.flatMap escapeChar ++ ['"']))

private def writeFloat (x : Float) : String :=
  match FloatClass.ofFloat x with
  | .finite .. => floatNotation.write x
  | _ => "null"

mutual
def print : Data → String
  | null => "null"
  | bool b => if b then "true" else "false"
  | int n => toString n
  | float x => writeFloat x
  | text s => quoteText s
  | list items => "[" ++ String.intercalate "," (printItems items) ++ "]"
  | record fields => "\x7b" ++ String.intercalate "," (printFields fields) ++ "\x7d"

def printItems : List Data → List String
  | [] => []
  | item :: rest => item.print :: printItems rest

def printFields : List (String × Data) → List String
  | [] => []
  | (key, value) :: rest => (quoteText key ++ ":" ++ value.print) :: printFields rest
end

/-- The text of a value: nothing for null, a text as it is, anything else in interchange form. -/
def display : Data → String
  | null => ""
  | text s => s
  | value => value.print

end Data

end ThemeTemplates
