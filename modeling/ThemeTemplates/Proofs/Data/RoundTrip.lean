import ThemeTemplates.Page.Value
import ThemeTemplates.Proofs.Data.Fields

/-!
# Site data through the page language

Site data that a page takes in and gives out again. What comes out of a page is canonical: whole
numbers of 64 bits, finite floating-point numbers, and records in ascending order of their keys.
Canonical data come back as they went in.
-/

namespace ThemeTemplates

mutual
def Data.Canonical : Data → Prop
  | .int n => Value.isDataInt n = true
  | .float x => x.isFinite = true
  | .list items => Data.CanonicalItems items
  | .record fields => Fields.Ascending fields ∧ Data.CanonicalFields fields
  | .null | .bool _ | .text _ => True

def Data.CanonicalItems : List Data → Prop
  | [] => True
  | item :: rest => item.Canonical ∧ Data.CanonicalItems rest

def Data.CanonicalFields : List (String × Data) → Prop
  | [] => True
  | (_, value) :: rest => value.Canonical ∧ Data.CanonicalFields rest
end

namespace Data

theorem canonicalItems_iff {items : List Data} :
    CanonicalItems items ↔ ∀ item ∈ items, item.Canonical := by
  induction items with
  | nil => simp [CanonicalItems]
  | cons item rest ih => simp [CanonicalItems, ih]

theorem canonicalFields_iff {fields : List (String × Data)} :
    CanonicalFields fields ↔ ∀ field ∈ fields, field.2.Canonical := by
  induction fields with
  | nil => simp [CanonicalFields]
  | cons field rest ih => simp [CanonicalFields, ih]

theorem canonical_ofFields {settings : List (String × Data)}
    (h : ∀ field ∈ settings, field.2.Canonical) : (ofFields settings).Canonical :=
  ⟨Fields.ascending_ofList settings,
    canonicalFields_iff.mpr fun field hfield => h field (Fields.mem_of_mem_ofList hfield)⟩

end Data

namespace Value

mutual
theorem toData?_ofData : ∀ {data : Data}, data.Canonical → (ofData data).toData? = some data
  | .null, _ => rfl
  | .bool _, _ => rfl
  | .int n, h => by
      have inRange : isDataInt n = true := h
      simp [ofData, ofInt, Number.given, toData?, inRange]
  | .float x, h => by
      have finite : x.isFinite = true := h
      simp [ofData, toData?, finite]
  | .text _, _ => rfl
  | .list items, h => by
      have canonical : Data.CanonicalItems items := h
      simp [ofData, toData?, itemsToData?_ofItems canonical]
  | .record fields, h => by
      obtain ⟨sorted, values⟩ := h
      simp [ofData, toData?, entriesToData?_ofFields values, Data.ofFields,
        Fields.ofList_of_ascending sorted]

theorem itemsToData?_ofItems :
    ∀ {items : List Data}, Data.CanonicalItems items → itemsToData? (ofItems items) = some items
  | [], _ => rfl
  | item :: rest, h => by
      simp [ofItems, itemsToData?, toData?_ofData h.1, itemsToData?_ofItems h.2]

theorem entriesToData?_ofFields :
    ∀ {fields : List (String × Data)}, Data.CanonicalFields fields →
      entriesToData? (ofFields fields) = some fields
  | [], _ => rfl
  | (key, value) :: rest, h => by
      simp [ofFields, entriesToData?, ofString, fieldName?, toData?_ofData h.1,
        entriesToData?_ofFields h.2]
end

theorem toData_ofData {data : Data} (h : data.Canonical) : (ofData data).toData = data := by
  simp [toData, toData?_ofData h]

theorem entriesToData?_append (first second : List (Value × Value)) :
    entriesToData? (first ++ second) =
      (entriesToData? first).bind fun fields => (entriesToData? second).map (fields ++ ·) := by
  induction first with
  | nil => simp [entriesToData?]
  | cons entry rest ih =>
      obtain ⟨key, value⟩ := entry
      simp only [List.cons_append, entriesToData?, ih]
      cases fieldName? key with
      | none => rfl
      | some name =>
          cases value.toData? with
          | none => rfl
          | some data =>
              cases entriesToData? rest with
              | none => rfl
              | some fields => cases entriesToData? second <;> rfl

theorem canonical_of_mem_loopPlace {index length depth : Nat} {field : String × Data}
    (hmem : field ∈ loopPlace index length depth) (plain : isPlainData field.2 = true) :
    field.2.Canonical := by
  simp only [loopPlace, List.mem_cons, List.not_mem_nil, or_false] at hmem
  rcases hmem with rfl | rfl | rfl | rfl | rfl | rfl | rfl | rfl | rfl
  all_goals first
    | exact plain
    | trivial

mutual
theorem canonical_of_toData? : ∀ {value : Value} {data : Data}, value.toData? = some data →
    data.Canonical
  | .bool _, _, h => by
      cases h
      trivial
  | .number (.whole n _), _, h => by
      unfold toData? at h
      split at h
      · next inRange =>
          cases h
          exact inRange
      · cases h
  | .number (.float x), _, h => by
      cases h
      split
      · next finite => exact finite
      · trivial
  | .text _ _, _, h => by
      cases h
      trivial
  | .list items, _, h => by
      obtain ⟨datas, found, rfl⟩ := Option.map_eq_some_iff.mp h
      exact canonicalItems_of_itemsToData? found
  | .map entries, _, h => by
      obtain ⟨fields, found, rfl⟩ := Option.map_eq_some_iff.mp h
      exact Data.canonical_ofFields (canonical_of_entriesToData? found)
  | .forState index length depth previous next, _, h => by
      unfold toData? at h
      split at h
      · next plain =>
          simp only [Option.bind_eq_bind, Option.bind_eq_some_iff, Option.pure_def,
            Option.some.injEq] at h
          obtain ⟨before, hbefore, behind, hbehind, rfl⟩ := h
          refine Data.canonical_ofFields fun field hmem => ?_
          rcases List.mem_append.mp hmem with hmem | hmem
          · exact canonical_of_mem_loopPlace hmem (List.all_eq_true.mp plain field hmem)
          · simp only [List.mem_cons, List.not_mem_nil, or_false] at hmem
            rcases hmem with rfl | rfl
            · exact canonical_of_toData? hbefore
            · exact canonical_of_toData? hbehind
      · cases h
  | .function _, _, h | .session, _, h | .undefined, _, h | .none, _, h => by
      cases h
      trivial

theorem canonicalItems_of_itemsToData? : ∀ {items : List Value} {datas : List Data},
    itemsToData? items = some datas → Data.CanonicalItems datas
  | [], _, h => by
      cases h
      trivial
  | item :: rest, _, h => by
      simp only [itemsToData?, Option.bind_eq_bind, Option.bind_eq_some_iff, Option.pure_def,
        Option.some.injEq] at h
      obtain ⟨first, hfirst, others, hothers, rfl⟩ := h
      exact ⟨canonical_of_toData? hfirst, canonicalItems_of_itemsToData? hothers⟩

theorem canonical_of_entriesToData? : ∀ {entries : List (Value × Value)}
    {fields : List (String × Data)}, entriesToData? entries = some fields →
    ∀ field ∈ fields, field.2.Canonical
  | [], _, h => by
      cases h
      simp
  | (key, value) :: rest, _, h => by
      simp only [entriesToData?, Option.bind_eq_bind, Option.bind_eq_some_iff, Option.pure_def,
        Option.some.injEq] at h
      obtain ⟨name, _, data, hdata, others, hothers, rfl⟩ := h
      exact List.forall_mem_cons.mpr
        ⟨canonical_of_toData? hdata, canonical_of_entriesToData? hothers⟩
end

theorem canonical_toData (value : Value) : value.toData.Canonical := by
  unfold toData
  cases found : value.toData? with
  | none => trivial
  | some data => exact canonical_of_toData? found

theorem canonical_of_items? {value : Value} {items : List Data}
    (found : value.toData.items? = some items) {item : Data} (hmem : item ∈ items) :
      item.Canonical := by
  have canonical := canonical_toData value
  revert found canonical
  generalize value.toData = data
  intro found canonical
  unfold Data.items? at found
  split at found
  · cases found
    exact Data.canonicalItems_iff.mp canonical item hmem
  · cases found
    obtain ⟨field, hfield, rfl⟩ := List.mem_map.mp hmem
    exact Data.canonicalFields_iff.mp canonical.2 field hfield
  · cases found
    cases hmem
  · cases found

end Value

end ThemeTemplates
