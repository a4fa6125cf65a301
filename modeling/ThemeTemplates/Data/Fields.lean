/-!
# Fields

Records with text keys, kept in the order of their keys. Reading a key after `insert`, `erase` and
`overlay` is described by `find?_insert`, `find?_erase` and `find?_overlay`.
-/

namespace ThemeTemplates

/-- Keyed values in ascending order of their keys. -/
abbrev Fields (α : Type) := List (String × α)

namespace Fields

variable {α β : Type}

def find? (fields : Fields α) (key : String) : Option α :=
  fields.lookup key

def contains (fields : Fields α) (key : String) : Bool :=
  (fields.find? key).isSome

def insert (fields : Fields α) (key : String) (value : α) : Fields α :=
  match fields with
  | [] => [(key, value)]
  | (k, v) :: rest =>
    if key == k then (key, value) :: rest
    else if key < k then (key, value) :: (k, v) :: rest
    else (k, v) :: insert rest key value

def erase (fields : Fields α) (key : String) : Fields α :=
  fields.filter fun field => field.1 != key

/-- Lays `layer` over `fields`: where both have a key, the layer's value stands. -/
def overlay (fields layer : Fields α) : Fields α :=
  layer.foldl (fun fields (key, value) => fields.insert key value) fields

def ofList (settings : List (String × α)) : Fields α :=
  overlay [] settings

def keys (fields : Fields α) : List String :=
  fields.map Prod.fst

def values (fields : Fields α) : List α :=
  fields.map Prod.snd

def mapValues (f : α → β) (fields : Fields α) : Fields β :=
  fields.map fun (key, value) => (key, f value)

@[simp] theorem find?_nil (key : String) : find? ([] : Fields α) key = none := rfl

theorem find?_cons (k key : String) (v : α) (rest : Fields α) :
    find? ((k, v) :: rest) key = if key = k then some v else find? rest key := by
  by_cases h : key = k
  · simp [find?, h]
  · have hb : (key == k) = false := beq_false_of_ne h
    simp [find?, List.lookup_cons, hb, h]

theorem find?_insert (fields : Fields α) (k key : String) (v : α) :
    find? (fields.insert k v) key = if key = k then some v else find? fields key := by
  induction fields with
  | nil => simp [insert, find?_cons]
  | cons field rest ih =>
      obtain ⟨k', v'⟩ := field
      simp only [insert]
      split
      · next same =>
          simp only [beq_iff_eq] at same
          subst same
          simp only [find?_cons]
          split <;> rfl
      · next other =>
          simp only [beq_iff_eq] at other
          split
          · simp only [find?_cons]
          · simp only [find?_cons, ih]
            by_cases hk : key = k'
            · simp [hk, Ne.symm other]
            · simp [hk]

theorem find?_erase (fields : Fields α) (k key : String) :
    find? (fields.erase k) key = if key = k then none else find? fields key := by
  induction fields with
  | nil => simp [erase]
  | cons field rest ih =>
      obtain ⟨k', v'⟩ := field
      simp only [erase, List.filter_cons] at ih ⊢
      by_cases same : k' = k
      · subst same
        simp only [bne_self_eq_false, Bool.false_eq_true, if_false, ih, find?_cons]
        split <;> rfl
      · simp only [bne_iff_ne, ne_eq, same, not_false_eq_true, if_true, find?_cons, ih]
        by_cases hk : key = k'
        · have : key ≠ k := fun h => same (hk ▸ h)
          simp [hk, same]
        · simp [hk]

theorem find?_overlay (fields layer : Fields α) (key : String) :
    find? (fields.overlay layer) key =
      (find? layer.reverse key).or (find? fields key) := by
  induction layer generalizing fields with
  | nil => simp [overlay]
  | cons setting rest ih =>
      obtain ⟨k, v⟩ := setting
      have step := ih (fields.insert k v)
      simp only [overlay, List.foldl_cons] at step ⊢
      rw [step, find?_insert]
      simp only [find?, List.reverse_cons, List.lookup_append]
      by_cases h : key = k
      · subst h
        simp
      · simp [List.lookup_cons, beq_false_of_ne h, h]

end Fields

end ThemeTemplates
