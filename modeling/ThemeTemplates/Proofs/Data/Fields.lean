import Mathlib.Data.List.Sort
import Mathlib.Data.String.Basic
import ThemeTemplates.Data.Fields

/-!
# The order of fields

Setting keys keeps them in ascending order, and settings that are in ascending order already are a
record as they stand.
-/

namespace ThemeTemplates

namespace Fields

variable {α : Type}

def Ascending (fields : Fields α) : Prop :=
  fields.Pairwise fun first second => first.1 < second.1

theorem mem_insert {fields : Fields α} {key : String} {value : α} {field : String × α}
    (h : field ∈ fields.insert key value) : field = (key, value) ∨ field ∈ fields := by
  induction fields with
  | nil => simpa [insert] using h
  | cons first rest ih =>
      obtain ⟨k, v⟩ := first
      simp only [insert] at h
      split at h
      · rcases List.mem_cons.mp h with h | h
        · exact .inl h
        · exact .inr (List.mem_cons_of_mem _ h)
      · split at h
        · rcases List.mem_cons.mp h with h | h
          · exact .inl h
          · exact .inr h
        · rcases List.mem_cons.mp h with h | h
          · exact .inr (h ▸ List.mem_cons_self)
          · exact (ih h).imp id (List.mem_cons_of_mem _)

theorem Ascending.insert {fields : Fields α} (h : fields.Ascending) (key : String) (value : α) :
    (fields.insert key value).Ascending := by
  induction fields with
  | nil => simp [Fields.insert, Ascending]
  | cons first rest ih =>
      obtain ⟨k, v⟩ := first
      obtain ⟨below, sorted⟩ := List.pairwise_cons.mp h
      simp only [Fields.insert]
      split
      · next same =>
          rw [beq_iff_eq] at same
          subst same
          exact List.pairwise_cons.mpr ⟨below, sorted⟩
      · next other =>
          split
          · next less =>
              refine List.pairwise_cons.mpr ⟨fun field hfield => ?_, h⟩
              rcases List.mem_cons.mp hfield with rfl | hfield
              · exact less
              · exact lt_trans less (below field hfield)
          · next greater =>
              have hk : k < key := by
                rw [beq_iff_eq] at other
                exact lt_of_le_of_ne (not_lt.mp greater) (Ne.symm other)
              refine List.pairwise_cons.mpr ⟨fun field hfield => ?_, ih sorted⟩
              rcases mem_insert hfield with rfl | hfield
              · exact hk
              · exact below field hfield

theorem mem_overlay {fields layer : Fields α} {field : String × α}
    (h : field ∈ fields.overlay layer) : field ∈ layer ∨ field ∈ fields := by
  induction layer generalizing fields with
  | nil => exact .inr h
  | cons first rest ih =>
      rcases ih h with h | h
      · exact .inl (List.mem_cons_of_mem _ h)
      · rcases mem_insert h with rfl | h
        · exact .inl List.mem_cons_self
        · exact .inr h

theorem mem_of_mem_ofList {settings : List (String × α)} {field : String × α}
    (h : field ∈ ofList settings) : field ∈ settings := by
  rcases mem_overlay h with h | h
  · exact h
  · cases h

theorem Ascending.overlay {fields : Fields α} (h : fields.Ascending) (layer : Fields α) :
    (fields.overlay layer).Ascending := by
  induction layer generalizing fields with
  | nil => exact h
  | cons first rest ih => exact ih (h.insert first.1 first.2)

theorem ascending_ofList (settings : List (String × α)) : (ofList settings).Ascending :=
  Ascending.overlay List.Pairwise.nil settings

theorem insert_eq_append {fields : Fields α} {key : String} (value : α)
    (h : ∀ field ∈ fields, field.1 < key) : fields.insert key value = fields ++ [(key, value)] := by
  induction fields with
  | nil => rfl
  | cons first rest ih =>
      obtain ⟨k, v⟩ := first
      have hk : k < key := h (k, v) List.mem_cons_self
      have other : (key == k) = false := beq_false_of_ne (ne_of_gt hk)
      simp only [insert, other, Bool.false_eq_true, if_false, if_neg (not_lt.mpr hk.le),
        List.cons_append]
      rw [ih fun field hfield => h field (List.mem_cons_of_mem _ hfield)]

theorem overlay_eq_append {fields layer : Fields α} (h : (fields ++ layer).Ascending) :
    fields.overlay layer = fields ++ layer := by
  induction layer generalizing fields with
  | nil => simp [overlay]
  | cons first rest ih =>
      obtain ⟨key, value⟩ := first
      have below : ∀ field ∈ fields, field.1 < key := fun field hfield =>
        (List.pairwise_append.mp h).2.2 field hfield (key, value) List.mem_cons_self
      have shifted : ((fields ++ [(key, value)]) ++ rest).Ascending := by
        simpa [Ascending] using h
      calc fields.overlay ((key, value) :: rest)
          = (fields.insert key value).overlay rest := rfl
        _ = (fields ++ [(key, value)]).overlay rest := by rw [insert_eq_append value below]
        _ = fields ++ (key, value) :: rest := by rw [ih shifted, List.append_assoc]; rfl

theorem ofList_of_ascending {settings : Fields α} (h : settings.Ascending) :
    ofList settings = settings := by
  have below : Fields.Ascending ([] ++ settings) := h
  simpa [ofList] using overlay_eq_append below

theorem contains_insert (fields : Fields α) (k key : String) (value : α) :
    (fields.insert k value).contains key = (key == k || fields.contains key) := by
  unfold contains
  rw [find?_insert]
  by_cases same : key = k <;> simp [same]

theorem erase_of_find?_eq_none {fields : Fields α} {key : String}
    (absent : fields.find? key = none) :
    fields.erase key = fields := by
  refine List.filter_eq_self.mpr fun field hfield => ?_
  rw [bne_comm]
  exact List.lookup_eq_none_iff.mp absent field hfield

end Fields

end ThemeTemplates
