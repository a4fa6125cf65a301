import ThemeTemplates.Data.Fields

/-!
# Site data

The values that sites and templates exchange: view data, items of a query, host answers. Whole
numbers and floating-point numbers are kept apart, and records are ordered by their keys.
-/

namespace ThemeTemplates

inductive Data where
  | null
  | bool (b : Bool)
  | int (n : Int)
  | float (x : Float)
  | text (s : String)
  | list (items : List Data)
  | record (fields : List (String × Data))
deriving Inhabited

abbrev ViewData := Fields Data

namespace Data

def ofFields (settings : List (String × Data)) : Data :=
  record (Fields.ofList settings)

def text? : Data → Option String
  | text s => some s
  | _ => none

def field? (value : Data) (key : String) : Option Data :=
  match value with
  | record fields => Fields.find? fields key
  | _ => none

/-- Whether a value counts as present: not null, false, zero, `""`, `"0"` or empty. -/
def truthy : Data → Bool
  | null => false
  | bool b => b
  | int n => n != 0
  | float x => x != 0
  | text s => s != "" && s != "0"
  | list items => !items.isEmpty
  | record fields => !fields.isEmpty

/-- The items a loop over a value visits: the elements of a list, the values of a record, none for
null. A scalar has no items. -/
def items? : Data → Option (List Data)
  | list items => some items
  | record fields => some (fields.map Prod.snd)
  | null => some []
  | _ => none

/-- The variables a value gives to a partial: a record's fields; null and the empty list give
none. -/
def viewData? : Data → Option ViewData
  | record fields => some fields
  | null => some []
  | list [] => some []
  | _ => none

end Data

end ThemeTemplates
