import ThemeTemplates.Page.Value

/-!
# Comparing page values

Two comparisons. `Value.equal` is the operator of the page language, by which truth values count as
numbers. `Value.compare` orders values as keys of maps: by their kind first, so that a truth value
is never the same key as a number.
-/

namespace ThemeTemplates

namespace Value

def kindRank : Value → Nat
  | undefined => 0
  | none => 1
  | bool _ => 2
  | number _ => 3
  | text _ _ => 4
  | list _ => 5
  | map _ | forState .. => 6
  | function _ | session => 7

mutual
/-- The order of values as keys. Functions go by their names, states of loops by their places. -/
def compare : Value → Value → Ordering
  | bool b, bool c => Ord.compare b.toNat c.toNat
  | number m, number n => m.compare n
  | text s _, text t _ => Ord.compare s t
  | list xs, list ys => compareItems xs ys
  | map xs, map ys => compareEntries xs ys
  | forState i m _ _ _, forState j n _ _ _ => (Ord.compare i j).then (Ord.compare m n)
  | function f, function g => Ord.compare f g
  | x, y => Ord.compare x.kindRank y.kindRank

def compareItems : List Value → List Value → Ordering
  | [], [] => .eq
  | [], _ :: _ => .lt
  | _ :: _, [] => .gt
  | x :: xs, y :: ys => (compare x y).then (compareItems xs ys)

def compareEntries : List (Value × Value) → List (Value × Value) → Ordering
  | [], [] => .eq
  | [], _ :: _ => .lt
  | _ :: _, [] => .gt
  | (k, x) :: xs, (l, y) :: ys =>
    ((compare k l).then (compare x y)).then (compareEntries xs ys)
end

def valueAt? (entries : List (Value × Value)) (key : Value) : Option Value :=
  (entries.find? fun entry => entry.1.compare key == .eq).map Prod.snd

/-- Sets a key of a map whose entries are in ascending order. A key that is set again stays as it
was first written. -/
def setEntry (entries : List (Value × Value)) (key value : Value) : List (Value × Value) :=
  match entries with
  | [] => [(key, value)]
  | (k, v) :: rest =>
    match key.compare k with
    | .eq => (k, value) :: rest
    | .lt => (key, value) :: (k, v) :: rest
    | .gt => (k, v) :: setEntry rest key value

mutual
def equal : Value → Value → Bool
  | undefined, undefined => true
  | none, none => true
  | text s _, text t _ => s == t
  | list xs, list ys => equalItems xs ys
  | map xs, map ys => xs.length == ys.length && equalEntries xs ys
  | function f, function g => f == g
  | session, session => true
  | forState i m d _ _, forState j n e _ _ => i == j && m == n && d == e
  | x, y =>
    match number? x, number? y with
    | some m, some n => m.equal n
    | _, _ => false

def equalItems : List Value → List Value → Bool
  | [], [] => true
  | x :: xs, y :: ys => equal x y && equalItems xs ys
  | _, _ => false

def equalEntries : List (Value × Value) → List (Value × Value) → Bool
  | [], _ => true
  | (k, x) :: xs, ys =>
    (match valueAt? ys k with
      | some y => equal x y
      | .none => false) && equalEntries xs ys
end

def index? (value : Value) : Option Int :=
  value.number?.bind Number.toInt?

def atIndex? {α : Type} (items : List α) (index : Int) : Option α :=
  match index with
  | .ofNat i => items[i]?
  | .negSucc i => items.reverse[i]?

theorem mem_of_valueAt? {entries : List (Value × Value)} {key value : Value}
    (h : valueAt? entries key = some value) : ∃ k, (k, value) ∈ entries := by
  simp only [valueAt?, Option.map_eq_some_iff] at h
  obtain ⟨⟨k, v⟩, found, rfl⟩ := h
  exact ⟨k, List.mem_of_find?_eq_some found⟩

theorem mem_of_atIndex? {α : Type} {items : List α} {index : Int} {item : α}
    (h : atIndex? items index = some item) : item ∈ items := by
  cases index with
  | ofNat i => exact List.mem_of_getElem? h
  | negSucc i => exact List.mem_reverse.mp (List.mem_of_getElem? h)

def lookup (value key : Value) : Value :=
  match value with
  | map entries => (valueAt? entries key).getD undefined
  | list items => (key.index?.bind (atIndex? items)).getD undefined
  | text s _ =>
    match key.index?.bind (atIndex? s.toList) with
    | some c => ofString c.toString
    | .none => undefined
  | forState index length depth previous next =>
    match key with
    | text name _ => ((loopFields index length depth previous next).lookup name).getD undefined
    | _ => undefined
  | _ => undefined

end Value

end ThemeTemplates
