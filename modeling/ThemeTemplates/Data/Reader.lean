import ThemeTemplates.Data.Basic
import ThemeTemplates.Decimal.Reader
import ThemeTemplates.Text.Escape

/-!
# Reading site data

The interchange form as text. Whole numbers that fit 64 bits, with or without sign, stay whole; all
other numbers become floating-point numbers. `Data.read?` keeps the fields of records as written,
`Data.parse?` puts them in order. `Data.readWanted?` reads the wanted fields of a record and only
passes over what stands under the others: it has to be well formed, but may nest to any depth and
hold numbers of any size and any escaped UTF-16 units.
-/

namespace ThemeTemplates

namespace Data

def leastInt : Int := -(Int.pow 2 63)
def greatestInt : Int := Int.pow 2 64 - 1

private def isJsonBlank (c : Char) : Bool :=
  c == ' ' || c == '\n' || c == '\t' || c == '\r'

private def skipBlanks (chars : List Char) : List Char :=
  chars.dropWhile isJsonBlank

private def readText : Nat → List Char → Option (List Char × List Char)
  | 0, _ => none
  | fuel + 1, chars =>
    match chars with
    | '"' :: rest => some ([], rest)
    | '\\' :: 'u' :: rest => do
      let (c, rest) ← readUnicodeEscape readHex4 rest
      let (tail, rest) ← readText fuel rest
      return (c :: tail, rest)
    | '\\' :: escape :: rest => do
      let c ← simpleEscape? escape
      let (tail, rest) ← readText fuel rest
      return (c :: tail, rest)
    | c :: rest => do
      guard (c != '\\' && 0x20 ≤ c.toNat)
      let (tail, rest) ← readText fuel rest
      return (c :: tail, rest)
    | [] => none

private def skipText : List Char → Option (List Char)
  | [] => none
  | '"' :: rest => some rest
  | '\\' :: 'u' :: a :: b :: c :: d :: rest =>
    if [a, b, c, d].all fun digit => (hexValue? digit).isSome then skipText rest else none
  | '\\' :: escape :: rest => if (simpleEscape? escape).isSome then skipText rest else none
  | c :: rest => if c != '\\' && 0x20 ≤ c.toNat then skipText rest else none

/-- A number as it is written: its sign, its digits before and behind the point, and its
exponent. -/
private structure Written where
  negative : Bool
  whole : List Char
  fraction : Option (List Char)
  exponent : Option Int

private def splitDigits (chars : List Char) : Option (List Char × List Char) :=
  match chars.span Char.isDigit with
  | ([], _) => none
  | (digits, rest) => some (digits, rest)

private def splitExponent (chars : List Char) : Option (Int × List Char) := do
  let (negative, chars) :=
    match chars with
    | '+' :: rest => (false, rest)
    | '-' :: rest => (true, rest)
    | _ => (false, chars)
  let (digits, rest) ← splitDigits chars
  let value := Int.ofNat (Decimal.natOfDigits digits)
  return (if negative then -value else value, rest)

private def splitNumber (chars : List Char) : Option (Written × List Char) := do
  let (negative, chars) :=
    match chars with
    | '-' :: rest => (true, rest)
    | _ => (false, chars)
  let (whole, rest) ← splitDigits chars
  guard (whole.length == 1 || whole.head? != some '0')
  let (fraction, rest) ←
    match rest with
    | '.' :: rest => (splitDigits rest).map fun (digits, rest) => (some digits, rest)
    | _ => some (none, rest)
  match rest with
  | c :: afterMark =>
    if c == 'e' || c == 'E' then
      let (exponent, rest) ← splitExponent afterMark
      return (⟨negative, whole, fraction, some exponent⟩, rest)
  | [] => pure ()
  return (⟨negative, whole, fraction, none⟩, rest)

/-- A significand of at most 64 bits and a power of ten. -/
private structure Scaled where
  significand : Nat := 0
  exponent : Int := 0
  full : Bool := false

/-- Takes in one digit. Once the significand is full, digits before the point only scale it. -/
private def Scaled.digit (fraction : Bool) (s : Scaled) (c : Char) : Scaled :=
  let next := s.significand * 10 + (c.toNat - '0'.toNat)
  if s.full || Int.ofNat next > greatestInt then
    { s with full := true, exponent := if fraction then s.exponent else s.exponent + 1 }
  else { s with significand := next, exponent := if fraction then s.exponent - 1 else s.exponent }

/-- Takes in the digits behind the point, from the first one on as if none had been left out. -/
private def Scaled.fraction (s : Scaled) (digits : List Char) : Scaled :=
  digits.foldl (Scaled.digit true) { s with full := false }

/-- The significand rounded, then scaled with one rounding for each factor of at most 10 ^ 308. -/
private def scaleFloat : Nat → Float → Int → Option Float
  | 0, _, _ => none
  | fuel + 1, x, exponent =>
    if exponent.natAbs ≤ 308 then
      let power := Float.ofScientific 1 false exponent.natAbs
      let scaled := if exponent < 0 then x / power else x * power
      if scaled.isInf then none else some scaled
    else if x == 0 then some x
    else if exponent > 0 then none
    else scaleFloat fuel (x / 1e308) (exponent + 308)

private def Scaled.toFloat? (s : Scaled) (negative : Bool) : Option Float := do
  let x ← scaleFloat 8 (Float.ofNat s.significand) (max s.exponent (-2000))
  return if negative then -x else x

private def Written.value? (written : Written) : Option Data := do
  let whole := written.whole.foldl (Scaled.digit false) {}
  let scaled := (written.fraction.map whole.fraction).getD whole
  let scaled := { scaled with exponent := scaled.exponent + written.exponent.getD 0 }
  let significand := Int.ofNat whole.significand
  let signed := if written.negative then -significand else significand
  let isWhole := written.fraction.isNone && written.exponent.isNone && !whole.full
  if isWhole && leastInt ≤ signed && !(written.negative && signed == 0) then return .int signed
  else return .float (← scaled.toFloat? written.negative)

private def readNumber (chars : List Char) : Option (Data × List Char) := do
  let (written, rest) ← splitNumber chars
  return (← written.value?, rest)

mutual
private def skipValue : Nat → List Char → Option (List Char)
  | 0, _ => none
  | fuel + 1, chars =>
    match skipBlanks chars with
    | 'n' :: 'u' :: 'l' :: 'l' :: rest => some rest
    | 't' :: 'r' :: 'u' :: 'e' :: rest => some rest
    | 'f' :: 'a' :: 'l' :: 's' :: 'e' :: rest => some rest
    | '"' :: rest => skipText rest
    | '[' :: rest =>
      match skipBlanks rest with
      | ']' :: rest => some rest
      | rest => skipItems fuel rest
    | '{' :: rest =>
      match skipBlanks rest with
      | '}' :: rest => some rest
      | rest => skipFields fuel rest
    | chars => (splitNumber chars).map Prod.snd

private def skipItems : Nat → List Char → Option (List Char)
  | 0, _ => none
  | fuel + 1, chars => do
    match skipBlanks (← skipValue fuel chars) with
    | ']' :: rest => return rest
    | ',' :: rest => skipItems fuel rest
    | _ => none

private def skipFields : Nat → List Char → Option (List Char)
  | 0, _ => none
  | fuel + 1, chars =>
    match skipBlanks chars with
    | '"' :: rest => do
      match skipBlanks (← skipText rest) with
      | ':' :: rest =>
        match skipBlanks (← skipValue fuel rest) with
        | '}' :: rest => return rest
        | ',' :: rest => skipFields fuel rest
        | _ => none
      | _ => none
    | _ => none
end

mutual
/-- Reads a value that nests at most `levels` deep. Of its own fields, those that are not wanted are
left out. -/
private def readValue (wanted : String → Bool) : Nat → Nat → List Char → Option (Data × List Char)
  | 0, _, _ => none
  | fuel + 1, levels, chars =>
    match skipBlanks chars with
    | 'n' :: 'u' :: 'l' :: 'l' :: rest => some (null, rest)
    | 't' :: 'r' :: 'u' :: 'e' :: rest => some (bool true, rest)
    | 'f' :: 'a' :: 'l' :: 's' :: 'e' :: rest => some (bool false, rest)
    | '"' :: rest => do
      let (s, rest) ← readText (rest.length + 1) rest
      return (.text (String.ofList s), rest)
    | '[' :: rest =>
      if levels == 0 then none
      else
        match skipBlanks rest with
        | ']' :: rest => some (list [], rest)
        | rest => do
          let (items, rest) ← readItems fuel (levels - 1) rest
          return (list items, rest)
    | '{' :: rest =>
      if levels == 0 then none
      else
        match skipBlanks rest with
        | '}' :: rest => some (record [], rest)
        | rest => do
          let (fields, rest) ← readFields wanted fuel (levels - 1) rest
          return (record fields, rest)
    | chars => readNumber chars

private def readItems : Nat → Nat → List Char → Option (List Data × List Char)
  | 0, _, _ => none
  | fuel + 1, levels, chars => do
    let (item, rest) ← readValue (fun _ => true) fuel levels chars
    match skipBlanks rest with
    | ']' :: rest => return ([item], rest)
    | ',' :: rest =>
      let (items, rest) ← readItems fuel levels rest
      return (item :: items, rest)
    | _ => none

private def readFields (wanted : String → Bool) :
    Nat → Nat → List Char → Option (List (String × Data) × List Char)
  | 0, _, _ => none
  | fuel + 1, levels, chars =>
    match skipBlanks chars with
    | '"' :: rest => do
      let (key, rest) ← readText (rest.length + 1) rest
      let key := String.ofList key
      match skipBlanks rest with
      | ':' :: rest =>
        let (field, rest) ←
          if wanted key then
            (readValue (fun _ => true) fuel levels rest).map fun (value, rest) =>
              ([(key, value)], rest)
          else (skipValue fuel rest).map fun rest => ([], rest)
        match skipBlanks rest with
        | '}' :: rest => return (field, rest)
        | ',' :: rest =>
          let (fields, rest) ← readFields wanted fuel levels rest
          return (field ++ fields, rest)
        | _ => none
      | _ => none
    | _ => none
end

/-- Reads a text that is one value nesting at most `levels` deep, without its own fields that are
not wanted. Fields stay as written. -/
def readWanted? (wanted : String → Bool) (levels : Nat) (s : String) : Option Data := do
  let chars := s.toList
  let (value, rest) ← readValue wanted (2 * chars.length + 2) levels chars
  guard (skipBlanks rest).isEmpty
  return value

/-- Reads a text that is one value nesting at most `levels` deep. Fields stay as written. -/
def read? (levels : Nat) (s : String) : Option Data :=
  readWanted? (fun _ => true) levels s

mutual
/-- Puts the fields of all records in order; of fields with one key the last stands. -/
def normalize : Data → Data
  | list items => list (normalizeItems items)
  | record fields => record (Fields.ofList (normalizeFields fields))
  | value => value

def normalizeItems : List Data → List Data
  | [] => []
  | item :: rest => item.normalize :: normalizeItems rest

def normalizeFields : List (String × Data) → List (String × Data)
  | [] => []
  | (key, value) :: rest => (key, value.normalize) :: normalizeFields rest
end

def parse? (levels : Nat) (s : String) : Option Data :=
  (read? levels s).map normalize

end Data

end ThemeTemplates
