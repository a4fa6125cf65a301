import ThemeTemplates.Data.Printer
import ThemeTemplates.Page.Number

/-!
# Page values

What expressions of the page language evaluate to. Site data comes in by `Value.ofData` and goes out
by `Value.toData`; beside it there are undefined values, texts that are markup already, maps with
keys of all kinds, the state of a `for` loop, and things that are no data: functions and the handle
of the render.
-/

namespace ThemeTemplates

inductive Value where
  | undefined
  | none
  | bool (b : Bool)
  | number (n : Number)
  /-- A text, and whether it is markup that is printed as it stands. -/
  | text (s : String) (markup : Bool)
  | list (items : List Value)
  /-- Entries in the order they are shown, no two of them with equal keys. -/
  | map (entries : List (Value × Value))
  | function (name : String)
  /-- The handle by which functions find their render. -/
  | session
  /-- The state of a `for` loop: where it stands among how many elements, how many loops are around
  it, and the elements next to the one it stands at. -/
  | forState (index length depth : Nat) (previous next : Value)
deriving Inhabited

namespace Value

def ofString (s : String) : Value :=
  text s false

def markup (s : String) : Value :=
  text s true

def ofInt (n : Int) : Value :=
  number (.given n)

end Value

namespace Value

mutual
def ofData : Data → Value
  | .null => none
  | .bool b => bool b
  | .int n => ofInt n
  | .float x => number (.float x)
  | .text s => ofString s
  | .list items => list (ofItems items)
  | .record fields => map (ofFields fields)

def ofItems : List Data → List Value
  | [] => []
  | item :: rest => ofData item :: ofItems rest

def ofFields : List (String × Data) → List (Value × Value)
  | [] => []
  | (key, value) :: rest => (ofString key, ofData value) :: ofFields rest
end

def sessionText : String := "render"

def isDataInt (n : Int) : Bool :=
  IntRange.signed64.contains n || IntRange.unsigned64.contains n

def isPlainData : Data → Bool
  | .int n => isDataInt n
  | _ => true

def loopPlace (index length depth : Nat) : List (String × Data) :=
  [("index0", .int index), ("index", .int (index + 1)), ("length", .int length),
    ("revindex", .int (length - index)), ("revindex0", .int (length - index - 1)),
    ("first", .bool (index == 0)), ("last", .bool (index + 1 == length)),
    ("depth", .int (depth + 1)), ("depth0", .int depth)]

def loopFields (index length depth : Nat) (previous next : Value) : List (String × Value) :=
  (loopPlace index length depth).map (fun (name, value) => (name, ofData value)) ++
    [("previtem", previous), ("nextitem", next)]

/-- A key as the name of a field. Lists, maps and what is not there are no names. -/
def fieldName? : Value → Option String
  | text s _ => some s
  | function name => some name
  | session => some sessionText
  | bool b => some (if b then "true" else "false")
  | number (.whole n _) => some (toString n)
  | number (.float x) => if x.isFinite then some (Data.floatNotation.write x) else .none
  | _ => .none

mutual
/-- A value as site data, unless some number in it is too large or some key is no name. -/
def toData? : Value → Option Data
  | bool b => some (.bool b)
  | number (.whole n _) => if isDataInt n then some (.int n) else .none
  | number (.float x) => some (if x.isFinite then .float x else .null)
  | text s _ => some (.text s)
  | list items => (itemsToData? items).map .list
  | map entries => (entriesToData? entries).map Data.ofFields
  | forState index length depth previous next =>
    if (loopPlace index length depth).all fun field => isPlainData field.2 then do
      let previous ← toData? previous
      let next ← toData? next
      return .ofFields
        (loopPlace index length depth ++ [("previtem", previous), ("nextitem", next)])
    else .none
  | function name => some (.text name)
  | session => some (.text sessionText)
  | undefined | none => some .null

def itemsToData? : List Value → Option (List Data)
  | [] => some []
  | item :: rest => do
    let item ← toData? item
    let rest ← itemsToData? rest
    return item :: rest

def entriesToData? : List (Value × Value) → Option (List (String × Data))
  | [] => some []
  | (key, value) :: rest => do
    let name ← fieldName? key
    let value ← toData? value
    let rest ← entriesToData? rest
    return (name, value) :: rest
end

def toData (value : Value) : Data :=
  value.toData?.getD .null

def isData : Value → Bool
  | undefined | function _ | session => false
  | _ => true

def isMarkup : Value → Bool
  | text _ isMarkup => isMarkup
  | _ => false

def isTrue : Value → Bool
  | undefined | none => false
  | bool b => b
  | number n => !n.isZero
  | text s _ => s != ""
  | list items => !items.isEmpty
  | map entries => !entries.isEmpty
  | function _ | session | forState .. => true

def elements? : Value → Option (List Value)
  | undefined | none => some []
  | text s _ => some (s.toList.map fun c => ofString c.toString)
  | list items => some items
  | map entries => some (entries.map Prod.fst)
  | forState index length depth previous next =>
    some ((loopFields index length depth previous next).map fun field => ofString field.1)
  | _ => .none

def number? : Value → Option Number
  | bool b => some (.given (if b then 1 else 0))
  | number n => some n
  | _ => .none

def sum? : Value → Value → Option Value
  | list xs, list ys => some (list (xs ++ ys))
  | text s _, text t _ => some (ofString (s ++ t))
  | x, y => do return number (← (← number? x).add? (← number? y))

def negate? : Value → Option Value
  | number n => n.negate?.map number
  | _ => .none

end Value

end ThemeTemplates
