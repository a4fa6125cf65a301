import ThemeTemplates.Decimal.Notation
import ThemeTemplates.Page.Value
import ThemeTemplates.Text.Visible

/-!
# Page values as text

What an echo prints. Text that is not markup yet is escaped for markup; a list or a map is written
with its texts in quotation marks and escaped as a whole.
-/

namespace ThemeTemplates

namespace Value

def floatNotation : FloatNotation where
  positional := fun _ => true
  plus := ""
  nan := "NaN"
  infinity := "inf"

/-- Inside lists and maps, numbers from 0.0001 up to, but not including, 10 ^ 16 are positional. -/
def innerFloatNotation : FloatNotation :=
  { floatNotation with positional := fun leading => -4 ≤ leading && leading < 16 }

def showChar (c : Char) : List Char :=
  if c == '\x00' then ['\\', '0']
  else if c == '\t' then ['\\', 't']
  else if c == '\r' then ['\\', 'r']
  else if c == '\n' then ['\\', 'n']
  else if c == '\\' || c == '"' then ['\\', c]
  else if isVisible c then [c]
  else ['\\', 'u', '{'] ++ Nat.toDigits 16 c.toNat ++ ['}']

/-- A text in quotation marks, with characters that have no shape written by their codes. -/
def showText (s : String) : String :=
  String.ofList ('"' :: (s.toList.flatMap showChar ++ ['"']))

mutual
/-- A value as it stands inside a list or a map. A function stands there, and wherever else it is
printed, as its bare name; in the page language itself it is a description of the function
object. -/
def inner : Value → String
  | undefined => "undefined"
  | none => "None"
  | bool b => if b then "True" else "False"
  | number (.whole n _) => toString n
  | number (.float x) => innerFloatNotation.write x
  | text s _ => showText s
  | list items => "[" ++ String.intercalate ", " (innerItems items) ++ "]"
  | map entries => "\x7b" ++ String.intercalate ", " (innerEntries entries) ++ "\x7d"
  | function name => name
  | session => sessionText
  | forState index length _ _ _ => s!"<loop {index}/{length}>"

def innerItems : List Value → List String
  | [] => []
  | item :: rest => inner item :: innerItems rest

def innerEntries : List (Value × Value) → List String
  | [] => []
  | (key, value) :: rest => (inner key ++ ": " ++ inner value) :: innerEntries rest
end

/-- The text of a value in a concatenation: texts are taken without quotation marks, and what is
undefined is empty. -/
def display : Value → String
  | undefined => ""
  | text s _ => s
  | number (.float x) => floatNotation.write x
  | value => value.inner

def escapeChar (c : Char) : List Char :=
  match c with
  | '<' => "&lt;".toList
  | '>' => "&gt;".toList
  | '&' => "&amp;".toList
  | '"' => "&quot;".toList
  | '\'' => "&#x27;".toList
  | '/' => "&#x2f;".toList
  | c => [c]

def escape (s : String) : String :=
  String.ofList (s.toList.flatMap escapeChar)

def print : Value → String
  | none => ""
  | text s true => s
  | value => escape value.display

end Value

end ThemeTemplates
