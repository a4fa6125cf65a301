import ThemeTemplates.Data.Basic
import ThemeTemplates.Decimal.Reader
import ThemeTemplates.Text.Blank
import ThemeTemplates.Text.Escape

/-!
# TOML

Reads a TOML document as a record of data. A key is set once, a table is opened once by its header,
and dotted keys do not reach into a table opened so. Line breaks in texts of several lines are read
as line feeds. Dates and times become records of one field.
-/

namespace ThemeTemplates

namespace Toml

abbrev Reader := StateT (List Char) Option

namespace Reader

def peek : Reader (Option Char) := do
  return (← get).head?

def skip (s : String) : Reader Bool := do
  match s.toList.isPrefixOf? (← get) with
  | some rest =>
    set rest
    return true
  | none => return false

def expect (s : String) : Reader Unit := do
  guard (← skip s)

def takeWhile (p : Char → Bool) : Reader (List Char) := do
  let text ← get
  set (text.dropWhile p)
  return text.takeWhile p

def blanks : Reader Unit := do
  discard (takeWhile isSpaceOrTab)

def isPlain (c : Char) : Bool :=
  c == '\t' || (0x20 ≤ c.toNat && c.toNat != 0x7f)

def comment : Reader Unit := do
  if ← skip "#" then discard (takeWhile isPlain)

def lineBreak : Reader Bool := do
  if ← skip "\n" then return true else skip "\r\n"

def lineEnd : Reader Unit := do
  blanks
  comment
  if (← peek).isSome then guard (← lineBreak)

def gaps : Nat → Reader Unit
  | 0 => return
  | bound + 1 => do
    blanks
    comment
    if ← lineBreak then gaps bound

/-- How many keys there may be between dots, and arrays and inline tables inside each other. -/
def levelLimit : Nat := 79

def bound : Reader Nat := do
  return (← get).length + 1

end Reader

open Reader

/-! ### Strings and keys -/

private def hexNumber (digits : List Char) : Option Nat :=
  digits.foldlM (fun n c => do return n * 16 + (← hexValue? c)) 0

private def scalar (count : Nat) : Reader Char := do
  let text ← get
  guard (count ≤ text.length)
  let n ← hexNumber (text.take count)
  guard (n.isValidChar)
  set (text.drop count)
  return Char.ofNat n

private def escaped : Reader Char := do
  if ← skip "u" then scalar 4
  else if ← skip "U" then scalar 8
  else
    match ← get with
    | '/' :: _ => failure
    | c :: rest =>
      set rest
      simpleEscape? c
    | [] => failure

private def basicText : Nat → Reader (List Char)
  | 0 => failure
  | steps + 1 => do
    match ← get with
    | '"' :: rest =>
      set rest
      return []
    | '\\' :: rest =>
      set rest
      return (← escaped) :: (← basicText steps)
    | c :: rest =>
      guard (isPlain c)
      set rest
      return c :: (← basicText steps)
    | [] => failure

private def literalText : Reader (List Char) := do
  let text ← takeWhile fun c => isPlain c && c != '\''
  expect "'"
  return text

/-- The end of a text of several lines, where up to two marks may stand before the closing three. -/
private def closing (mark : Char) : Reader (Option (List Char)) := do
  let marks := (← get).takeWhile (· == mark)
  let count := min marks.length 5
  if count < 3 then return none
  set ((← get).drop count)
  return some (List.replicate (count - 3) mark)

private def dropGaps : List Char → List Char
  | '\r' :: '\n' :: rest => dropGaps rest
  | c :: rest => if isSpaceOrTab c || c == '\n' then dropGaps rest else c :: rest
  | [] => []

private def multiBasic : Nat → Reader (List Char)
  | 0 => failure
  | steps + 1 => do
    match ← closing '"' with
    | some marks => return marks
    | none =>
      match ← get with
      | '\\' :: rest =>
        let after := rest.dropWhile isSpaceOrTab
        if after.head? == some '\n' || ['\r', '\n'].isPrefixOf after then
          set (dropGaps after)
          multiBasic steps
        else
          set rest
          return (← escaped) :: (← multiBasic steps)
      | '\r' :: '\n' :: rest =>
        set rest
        return '\n' :: (← multiBasic steps)
      | c :: rest =>
        guard (isPlain c || c == '\n')
        set rest
        return c :: (← multiBasic steps)
      | [] => failure

private def multiLiteral : Nat → Reader (List Char)
  | 0 => failure
  | steps + 1 => do
    match ← closing '\'' with
    | some marks => return marks
    | none =>
      match ← get with
      | '\r' :: '\n' :: rest =>
        set rest
        return '\n' :: (← multiLiteral steps)
      | c :: rest =>
        guard (isPlain c || c == '\n')
        set rest
        return c :: (← multiLiteral steps)
      | [] => failure

private def isKeyChar (c : Char) : Bool :=
  c.isAlphanum || c == '_' || c == '-'

private def simpleKey : Reader String := do
  if ← skip "\"" then return String.ofList (← basicText (← bound))
  else if ← skip "'" then return String.ofList (← literalText)
  else
    let key ← takeWhile isKeyChar
    guard (!key.isEmpty)
    return String.ofList key

private def keysWithin : Nat → Reader (List String)
  | 0 => failure
  | count + 1 => do
    blanks
    let key ← simpleKey
    blanks
    if ← skip "." then return key :: (← keysWithin count) else return [key]

private def dottedKey : Reader (List String) :=
  keysWithin levelLimit

/-! ### Numbers and times -/

/-- Drops the underscores of a number, each of which must stand between two digits. -/
private def plainDigits (isDigit : Char → Bool) (digits : List Char) : Option (List Char) := do
  guard (!digits.isEmpty && digits.all fun c => isDigit c || c == '_')
  guard (digits.head? != some '_' && digits.getLast? != some '_')
  guard (!((digits.zip digits.tail).contains ('_', '_')))
  return digits.filter (· != '_')

private def radixNumber (radix : Nat) (digits : List Char) : Option Int := do
  let isDigit := fun c => (hexValue? c).any (· < radix)
  let digits ← plainDigits isDigit digits
  let n := digits.foldl (fun n c => n * radix + (hexValue? c).getD 0) 0
  guard (n < Nat.pow 2 63)
  return n

private def decimalDigits (digits : List Char) : Option (List Char) := do
  let digits ← plainDigits Char.isDigit digits
  guard (digits.length == 1 || digits.head? != some '0')
  return digits

/-- Reads a number after its sign. A number without a minus sign must not be too large. -/
private def unsigned (negative : Bool) (word : List Char) : Option Data := do
  let sign (n : Nat) : Int := if negative then -Int.ofNat n else n
  let (whole, rest) := word.span fun c => c.isDigit || c == '_'
  let whole ← decimalDigits whole
  match rest with
  | [] =>
    let n := sign (Decimal.natOfDigits whole)
    guard (-(Int.pow 2 63) ≤ n && n < Int.pow 2 63)
    return .int n
  | rest =>
    let rest ←
      match rest with
      | '.' :: rest =>
        let (digits, rest) := rest.span fun c => c.isDigit || c == '_'
        (plainDigits Char.isDigit digits).map fun _ => rest
      | rest => some rest
    match rest with
    | [] => pure ()
    | e :: rest =>
      guard (e == 'e' || e == 'E')
      let digits :=
        match rest with
        | '-' :: digits | '+' :: digits => digits
        | digits => digits
      discard (plainDigits Char.isDigit digits)
    let x ← Decimal.readFloat? (word.filter (· != '_'))
    guard (negative || x.isFinite)
    return .float (if negative then -x else x)

private def number? (word : List Char) : Option Data :=
  let (negative, signed, word) :=
    match word with
    | '-' :: rest => (true, true, rest)
    | '+' :: rest => (false, true, rest)
    | word => (false, false, word)
  match word with
  | ['i', 'n', 'f'] => some (.float (if negative then -(1.0 / 0.0) else 1.0 / 0.0))
  | ['n', 'a', 'n'] => some (.float (0.0 / 0.0))
  | '0' :: 'x' :: digits => if signed then none else (radixNumber 16 digits).map .int
  | '0' :: 'o' :: digits => if signed then none else (radixNumber 8 digits).map .int
  | '0' :: 'b' :: digits => if signed then none else (radixNumber 2 digits).map .int
  | word => unsigned negative word

private def field? (low high : Nat) (digits : List Char) : Option Nat := do
  guard (digits.length == 2 && digits.all Char.isDigit)
  let n := Decimal.natOfDigits digits
  guard (low ≤ n && n ≤ high)
  return n

private def daysIn (year month : Nat) : Nat :=
  if month == 2 then if year % 4 == 0 && (year % 100 != 0 || year % 400 == 0) then 29 else 28
  else if [4, 6, 9, 11].contains month then 30 else 31

private def isDate (word : List Char) : Bool :=
  match word with
  | [a, b, c, d, '-', e, f, '-', g, h] =>
    [a, b, c, d].all Char.isDigit && (field? 1 12 [e, f]).any fun month =>
      (field? 1 (daysIn (Decimal.natOfDigits [a, b, c, d]) month) [g, h]).isSome
  | _ => false

private def isOffset (word : List Char) : Bool :=
  match word with
  | [] | ['Z'] | ['z'] => true
  | [sign, a, b, ':', c, d] =>
    (sign == '+' || sign == '-') && (field? 0 23 [a, b]).isSome && (field? 0 59 [c, d]).isSome
  | _ => false

private def isTime (offset : Bool) (word : List Char) : Bool :=
  match word with
  | a :: b :: ':' :: c :: d :: ':' :: e :: f :: rest =>
    let rest :=
      match rest with
      | '.' :: fraction =>
        match fraction.span Char.isDigit with
        | ([], _) => ['.']
        | (_, rest) => rest
      | rest => rest
    (field? 0 23 [a, b]).isSome && (field? 0 59 [c, d]).isSome && (field? 0 60 [e, f]).isSome &&
      (if offset then isOffset rest else rest.isEmpty)
  | _ => false

private def isMoment (word : List Char) : Bool :=
  isDate word || isTime false word ||
    (isDate (word.take 10) && (word[10]?).any (fun c => c == 'T' || c == 't' || c == ' ') &&
      isTime true (word.drop 11))

private def isWord (c : Char) : Bool :=
  c.isAlphanum || c == '_' || c == '-' || c == '+' || c == '.' || c == ':'

private def wordValue : Reader Data := do
  let word ← takeWhile isWord
  let word ←
    match ← get with
    | ' ' :: c :: _ =>
      if isDate word && c.isDigit then
        modify fun text => text.drop 1
        pure (word ++ ' ' :: (← takeWhile isWord))
      else pure word
    | _ => pure word
  match word with
  | ['t', 'r', 'u', 'e'] => return .bool true
  | ['f', 'a', 'l', 's', 'e'] => return .bool false
  | word =>
    if isMoment word then return .record [("datetime", .text (String.ofList word))]
    else number? word

/-! ### Tables -/

inductive Origin where
  | header
  | implied
  | dotted
deriving DecidableEq

inductive Node where
  | value (data : Data)
  | table (origin : Origin) (fields : List (String × Node))
  /-- The tables of an array of tables, the latest first. -/
  | tables (elements : List (List (String × Node)))

abbrev Table := List (String × Node)

def Table.change (table : Table) (key : String) (f : Option Node → Option Node) : Option Table :=
  match table with
  | [] => do return [(key, ← f none)]
  | (k, node) :: rest =>
    if k == key then do return (k, ← f (some node)) :: rest
    else do return (k, node) :: (← Table.change rest key f)

/-- Changes the table under a path, which is made if it is missing. Steps of a dotted key do not go
through tables that have a header, and the last one leads to a table made by a dotted key. -/
def Table.changeAt (dotted : Bool) (f : Table → Option Table) : List String → Table → Option Table
  | [], table => f table
  | key :: path, table =>
    Table.change table key fun
      | none => do
        return .table (if dotted then .dotted else .implied) (← changeAt dotted f path [])
      | some (.table origin fields) => do
        guard (!dotted || (if path.isEmpty then origin == .dotted else origin != .header))
        return .table origin (← changeAt dotted f path fields)
      | some (.tables (last :: earlier)) => do
        guard (!(dotted && path.isEmpty))
        return .tables ((← changeAt dotted f path last) :: earlier)
      | some _ => none

def Table.setKey (table : Table) (path : List String) (data : Data) : Option Table := do
  let key ← path.getLast?
  table.changeAt true (fun fields => Table.change fields key fun
    | none => some (.value data)
    | some _ => none) path.dropLast

def Table.openTable (table : Table) (path : List String) : Option Table := do
  let key ← path.getLast?
  table.changeAt false (fun fields => Table.change fields key fun
    | none => some (.table .header [])
    | some (.table .implied fields) => some (.table .header fields)
    | some _ => none) path.dropLast

def Table.openElement (table : Table) (path : List String) : Option Table := do
  let key ← path.getLast?
  table.changeAt false (fun fields => Table.change fields key fun
    | none => some (.tables [[]])
    | some (.tables elements) => some (.tables ([] :: elements))
    | some _ => none) path.dropLast

mutual
def Node.toData : Node → Data
  | .value data => data
  | .table _ fields => Data.ofFields (fieldsToData fields)
  | .tables elements => .list (elementsToData elements).reverse

def fieldsToData : List (String × Node) → List (String × Data)
  | [] => []
  | (key, node) :: rest => (key, node.toData) :: fieldsToData rest

def elementsToData : List (List (String × Node)) → List Data
  | [] => []
  | fields :: rest => Data.ofFields (fieldsToData fields) :: elementsToData rest
end

/-! ### Documents -/

private def arrayItems (item : Reader Data) : Nat → Reader (List Data)
  | 0 => failure
  | steps + 1 => do
    gaps (← bound)
    if ← skip "]" then return []
    let first ← item
    gaps (← bound)
    if ← skip "," then return first :: (← arrayItems item steps)
    else
      expect "]"
      return [first]

private def inlineEntries (item : Reader Data) : Nat → Table → Reader Table
  | 0, _ => failure
  | steps + 1, table => do
    let key ← dottedKey
    expect "="
    blanks
    let data ← item
    let table ← table.setKey key data
    blanks
    if ← skip "," then inlineEntries item steps table
    else
      expect "\x7d"
      return table

private def flatValue : Reader Data := do
  if ← skip "\"\"\"" then
    discard lineBreak
    return .text (String.ofList (← multiBasic (← bound)))
  else if ← skip "'''" then
    discard lineBreak
    return .text (String.ofList (← multiLiteral (← bound)))
  else if ← skip "\"" then return .text (String.ofList (← basicText (← bound)))
  else if ← skip "'" then return .text (String.ofList (← literalText))
  else wordValue

/-- Reads a value with so many arrays and inline tables inside each other at most. -/
private def value : Nat → Reader Data
  | 0 => do
    match ← peek with
    | some '[' | some '{' => failure
    | _ => flatValue
  | levels + 1 => do
    if ← skip "[" then return .list (← arrayItems (value levels) (← bound))
    else if ← skip "\x7b" then
      blanks
      if ← skip "\x7d" then return .record []
      let table ← inlineEntries (value levels) (← bound) []
      return Node.toData (.table .header table)
    else flatValue

/-- Reads the lines of a document from where the table of a header stands open. -/
private def lines : Nat → List String → Table → Reader Table
  | 0, _, _ => failure
  | steps + 1, here, table => do
    gaps (← bound)
    if (← peek).isNone then return table
    if ← skip "[[" then
      let path ← dottedKey
      expect "]]"
      lineEnd
      lines steps path (← table.openElement path)
    else if ← skip "[" then
      let path ← dottedKey
      expect "]"
      lineEnd
      lines steps path (← table.openTable path)
    else
      let key ← dottedKey
      expect "="
      blanks
      let data ← value levelLimit
      lineEnd
      lines steps here (← table.changeAt false (fun fields => Table.setKey fields key data) here)

def parse? (document : String) : Option Data := do
  let text :=
    match document.toList with
    | '\uFEFF' :: rest => rest
    | text => text
  let (table, _) ← (lines (text.length + 1) [] []).run text
  return Node.toData (.table .header table)

end Toml

end ThemeTemplates
