import ThemeTemplates.Page.Comparison
import ThemeTemplates.Page.Printer
import ThemeTemplates.Proofs.Data.RoundTrip

/-!
# Page values as site data and back

A partial is given the variables of its caller as site data. What a page then reads off a value, by
attributes and indices, is what it read off the original if data can hold the value with all that is
inside it. It also looks the same, unless it is markup, no finite number, or a map in another order.
-/

namespace ThemeTemplates

/-- A record of settings none of which is made twice has the values of the settings. -/
theorem Fields.find?_ofList_of_nodup {α : Type} {settings : Fields α} (once : settings.keys.Nodup)
    (name : String) : (ofList settings).find? name = settings.find? name := by
  rw [ofList, find?_overlay, find?_nil, Option.or_none]
  induction settings with
  | nil => rfl
  | cons setting rest ih =>
      obtain ⟨key, value⟩ := setting
      obtain ⟨new, once⟩ := List.nodup_cons.mp once
      have before := ih once
      simp only [find?, List.reverse_cons, List.lookup_append] at before ⊢
      rw [before]
      by_cases same : name = key
      · subst same
        have nowhere : rest.lookup name = none := List.lookup_eq_none_iff.mpr fun setting hmem =>
          bne_iff_ne.mpr fun here => new (List.mem_map.mpr ⟨setting, hmem, here.symm⟩)
        simp [nowhere]
      · simp [List.lookup_cons, beq_false_of_ne same]

namespace Value

/-! ### What a page reads off a value -/

def isDefined : Value → Bool
  | undefined => false
  | _ => true

/-- What stands at the end of a path of attributes and indices. -/
def follow (value : Value) (path : List Value) : Value :=
  path.foldl lookup value

/-- A value as a partial of its page inherits it. -/
def throughData (value : Value) : Value :=
  ofData value.toData

def isText : Value → Bool
  | text _ _ => true
  | _ => false

def KeysApart (entries : List (Value × Value)) : Prop :=
  entries.Pairwise fun first second => first.1.compare second.1 ≠ .eq

def KeysAscend (entries : List (Value × Value)) : Prop :=
  entries.Pairwise fun first second => first.1.compare second.1 = .lt

mutual
/-- Values that data can hold with all that is inside them: whole numbers of 64 bits and
floating-point numbers, texts, and lists and maps of such values, where the keys of the maps are
texts. -/
def Portable : Value → Prop
  | none | bool _ | text _ _ | number (.float _) => True
  | number (.whole n _) => isDataInt n = true
  | list items => PortableItems items
  | map entries => KeysApart entries ∧ PortableEntries entries
  | undefined | function _ | session | forState .. => False

def PortableItems : List Value → Prop
  | [] => True
  | item :: rest => item.Portable ∧ PortableItems rest

def PortableEntries : List (Value × Value) → Prop
  | [] => True
  | (key, value) :: rest => key.isText = true ∧ value.Portable ∧ PortableEntries rest
end

mutual
/-- Values that look the same as data where they stand inside a list or a map: numbers in them are
finite, and maps are in ascending order. -/
def UnalteredInside : Value → Prop
  | number (.float x) => x.isFinite = true
  | list items => UnalteredItems items
  | map entries => KeysAscend entries ∧ UnalteredEntries entries
  | _ => True

def UnalteredItems : List Value → Prop
  | [] => True
  | item :: rest => item.UnalteredInside ∧ UnalteredItems rest

def UnalteredEntries : List (Value × Value) → Prop
  | [] => True
  | (_, value) :: rest => value.UnalteredInside ∧ UnalteredEntries rest
end

/-- Values that print the same as data. On its own, markup does so only if nothing in it needs to be
escaped. -/
def Unaltered : Value → Prop
  | text s isMarkup => isMarkup = true → escape s = s
  | value => value.UnalteredInside

/-! ### Keys -/

theorem exists_text_of_isText {key : Value} (h : key.isText = true) : ∃ s m, key = text s m := by
  cases key with
  | text s m => exact ⟨s, m, rfl⟩
  | _ => cases h

theorem compare_text (s t : String) (m m' : Bool) :
    (text s m).compare (text t m') = Ord.compare s t := by
  simp [compare]

theorem compare_text_eq {s t : String} {m m' : Bool} :
    (text s m).compare (text t m') = .eq ↔ s = t := by
  rw [compare_text, Std.LawfulEqOrd.compare_eq_iff_eq]

theorem compare_text_ne_eq {key : Value} (noText : key.isText = false) (s : String) (m : Bool) :
    (text s m).compare key ≠ .eq := by
  cases key with
  | text => cases noText
  | _ => simp [compare, kindRank]

theorem lt_of_compare_text {s t : String} {m m' : Bool}
    (less : (text s m).compare (text t m') = .lt) : s < t := by
  rw [compare_text] at less
  exact compare_lt_iff_lt.mp less

theorem valueAt?_text_cons (t s : String) (m m' : Bool) (value : Value)
    (rest : List (Value × Value)) : valueAt? ((text t m', value) :: rest) (text s m) =
      if s = t then some value else valueAt? rest (text s m) := by
  unfold valueAt?
  rw [List.find?_cons, compare_text]
  by_cases here : s = t
  · simp [here]
  · have other : Ord.compare t s ≠ .eq := fun same =>
      here (Std.LawfulEqOrd.eq_of_compare same).symm
    simp [here, beq_false_of_ne other]

theorem valueAt?_eq_none {entries : List (Value × Value)} {key : Value}
    (nowhere : ∀ entry ∈ entries, entry.1.compare key ≠ .eq) :
    valueAt? entries key = Option.none := by
  unfold valueAt?
  rw [Option.map_eq_none_iff, List.find?_eq_none]
  exact fun entry hmem => by simpa using nowhere entry hmem

/-! ### Lists and maps as data -/

theorem throughData_list {items : List Value} {datas : List Data}
    (found : itemsToData? items = some datas) :
    (list items).throughData = list (items.map throughData) := by
  rw [throughData, toData, toData?, found, Option.map_some, Option.getD_some, ofData]
  congr 1
  induction items generalizing datas with
  | nil =>
      cases found
      rfl
  | cons item rest ih =>
      simp only [itemsToData?, Option.bind_eq_bind, Option.bind_eq_some_iff, Option.pure_def,
        Option.some.injEq] at found
      obtain ⟨data, kept, others, all, rfl⟩ := found
      simp [ofItems, ih all, throughData, toData, kept]

theorem lookup_ofData_record (fields : Fields Data) (s : String) (m : Bool) :
    (ofData (.record fields)).lookup (text s m) = ((fields.find? s).map ofData).getD undefined := by
  have same : valueAt? (ofFields fields) (text s m) = (fields.find? s).map ofData := by
    induction fields with
    | nil => rfl
    | cons field rest ih =>
        obtain ⟨key, data⟩ := field
        rw [ofFields, ofString, valueAt?_text_cons, ih, Fields.find?_cons]
        split <;> rfl
  exact congrArg (Option.getD · undefined) same

theorem lookup_record_noText {key : Value} (noText : key.isText = false) (fields : Fields Data) :
    (ofData (.record fields)).lookup key = undefined := by
  have absent : valueAt? (ofFields fields) key = Option.none := by
    refine valueAt?_eq_none ?_
    induction fields with
    | nil => exact List.forall_mem_nil _
    | cons field rest ih =>
        exact List.forall_mem_cons.mpr ⟨compare_text_ne_eq noText field.1 false, ih⟩
  exact congrArg (Option.getD · undefined) absent

section

variable {entries : List (Value × Value)} (texts : ∀ entry ∈ entries, entry.1.isText = true)

include texts

theorem pairwise_display (before : Value → Value → Prop) {less : String → String → Prop}
    (asTexts : ∀ s t m m', before (text s m) (text t m') → less s t)
    (ordered : entries.Pairwise fun first second => before first.1 second.1) :
    (entries.map fun entry => entry.1.display).Pairwise less := by
  refine List.pairwise_map.mpr (ordered.imp_of_mem fun {first second} hfirst hsecond h => ?_)
  obtain ⟨s, m, key⟩ := exists_text_of_isText (texts first hfirst)
  obtain ⟨t, m', key'⟩ := exists_text_of_isText (texts second hsecond)
  rw [key, key'] at h ⊢
  exact asTexts s t m m' h

theorem find?_map_display (s : String) (m : Bool) :
    Fields.find? (entries.map fun entry => (entry.1.display, entry.2.toData)) s =
      (valueAt? entries (text s m)).map toData := by
  induction entries with
  | nil => rfl
  | cons entry rest ih =>
      obtain ⟨key, value⟩ := entry
      obtain ⟨isText, later⟩ := List.forall_mem_cons.mp texts
      obtain ⟨t, m', rfl⟩ := exists_text_of_isText isText
      rw [List.map_cons, Fields.find?_cons, ih later, valueAt?_text_cons, display]
      split <;> rfl

variable {fields : Fields Data} (found : entriesToData? entries = some fields)

include found

theorem fields_eq_map :
    fields = entries.map fun entry => (entry.1.display, entry.2.toData) := by
  induction entries generalizing fields with
  | nil =>
      cases found
      rfl
  | cons entry rest ih =>
      obtain ⟨key, value⟩ := entry
      obtain ⟨isText, later⟩ := List.forall_mem_cons.mp texts
      obtain ⟨s, m, rfl⟩ := exists_text_of_isText isText
      simp only [entriesToData?, fieldName?, Option.bind_eq_bind, Option.bind_eq_some_iff,
        Option.pure_def, Option.some.injEq] at found
      obtain ⟨_, rfl, data, kept, others, all, rfl⟩ := found
      rw [List.map_cons, ← ih later all, toData, kept]
      rfl

theorem lookup_throughData_map (apart : KeysApart entries) (key : Value) :
    (map entries).throughData.lookup key =
      ((valueAt? entries key).map throughData).getD undefined := by
  have once : (Fields.keys fields).Nodup := by
    rw [fields_eq_map texts found, Fields.keys, List.map_map]
    exact pairwise_display texts (fun first second => first.compare second ≠ .eq)
      (fun s t m m' h same => h (compare_text_eq.mpr same)) apart
  rw [throughData, toData, toData?, found, Option.map_some, Option.getD_some, Data.ofFields]
  cases isText : key.isText with
  | true =>
      obtain ⟨s, m, rfl⟩ := exists_text_of_isText isText
      rw [lookup_ofData_record, Fields.find?_ofList_of_nodup once, fields_eq_map texts found,
        find?_map_display texts s m, Option.map_map]
      rfl
  | false =>
      have absent : valueAt? entries key = Option.none := valueAt?_eq_none fun entry hmem => by
        obtain ⟨s, m, here⟩ := exists_text_of_isText (texts entry hmem)
        rw [here]
        exact compare_text_ne_eq isText s m
      rw [lookup_record_noText isText, absent]
      rfl

theorem throughData_map (ascend : KeysAscend entries) : (map entries).throughData =
    map (entries.map fun entry => (ofString entry.1.display, entry.2.throughData)) := by
  have ascending : Fields.Ascending fields := by
    refine List.pairwise_map.mp (?_ : (Fields.keys fields).Pairwise (· < ·))
    rw [fields_eq_map texts found, Fields.keys, List.map_map]
    exact pairwise_display texts (fun first second => first.compare second = .lt)
      (fun _ _ _ _ => lt_of_compare_text) ascend
  rw [throughData, toData, toData?, found, Option.map_some, Option.getD_some, Data.ofFields,
    Fields.ofList_of_ascending ascending, ofData, fields_eq_map texts found]
  congr 1
  clear * -
  induction entries with
  | nil => rfl
  | cons entry rest ih => exact congrArg (_ :: ·) ih

end

/-! ### What is read off a portable value -/

theorem portableItems_iff {items : List Value} :
    PortableItems items ↔ ∀ item ∈ items, item.Portable := by
  induction items with
  | nil => simp [PortableItems]
  | cons item rest ih => simp [PortableItems, ih]

theorem portableEntries_iff {entries : List (Value × Value)} :
    PortableEntries entries ↔ ∀ entry ∈ entries, entry.1.isText = true ∧ entry.2.Portable := by
  induction entries with
  | nil => simp [PortableEntries]
  | cons entry rest ih => simp [PortableEntries, ih, and_assoc]

mutual
theorem Portable.exists_data : ∀ {value : Value}, value.Portable → ∃ data, value.toData? = some data
  | .none, _ | .bool _, _ | .text _ _, _ | .number (.float _), _ => ⟨_, rfl⟩
  | .number (.whole n _), h => ⟨.int n, if_pos h⟩
  | .list items, h => by
      obtain ⟨datas, found⟩ := PortableItems.exists_datas h
      exact ⟨.list datas, congrArg (Option.map Data.list) found⟩
  | .map entries, h => by
      obtain ⟨fields, found⟩ := PortableEntries.exists_fields h.2
      exact ⟨Data.ofFields fields, congrArg (Option.map Data.ofFields) found⟩

theorem PortableItems.exists_datas : ∀ {items : List Value}, PortableItems items →
    ∃ datas, itemsToData? items = some datas
  | [], _ => ⟨[], rfl⟩
  | item :: rest, h => by
      obtain ⟨data, found⟩ := Portable.exists_data h.1
      obtain ⟨datas, others⟩ := PortableItems.exists_datas h.2
      exact ⟨data :: datas, by simp [itemsToData?, found, others]⟩

theorem PortableEntries.exists_fields : ∀ {entries : List (Value × Value)},
    PortableEntries entries → ∃ fields, entriesToData? entries = some fields
  | [], _ => ⟨[], rfl⟩
  | (key, value) :: rest, h => by
      obtain ⟨s, m, rfl⟩ := exists_text_of_isText h.1
      obtain ⟨data, found⟩ := Portable.exists_data h.2.1
      obtain ⟨fields, others⟩ := PortableEntries.exists_fields h.2.2
      exact ⟨(s, data) :: fields, by simp [entriesToData?, fieldName?, found, others]⟩
end

mutual
theorem Portable.inner_throughData : ∀ {value : Value}, value.Portable → value.UnalteredInside →
    value.throughData.inner = value.inner
  | .none, _, _ | .bool _, _, _ | .text _ _, _, _ => rfl
  | .number (.whole n _), h, _ => by
      have held : isDataInt n = true := h
      simp [throughData, toData, toData?, held, ofData, ofInt, Number.given, inner]
  | .number (.float x), _, h => by
      have finite : x.isFinite = true := h
      simp [throughData, toData, toData?, finite, ofData, inner]
  | .list items, h, same => by
      obtain ⟨datas, found⟩ := PortableItems.exists_datas h
      rw [throughData_list found, inner, inner, PortableItems.inner_throughData h same]
  | .map entries, h, same => by
      obtain ⟨fields, found⟩ := PortableEntries.exists_fields h.2
      have texts : ∀ entry ∈ entries, entry.1.isText = true :=
        fun entry hmem => (portableEntries_iff.mp h.2 entry hmem).1
      rw [throughData_map texts found same.1, inner, inner,
        PortableEntries.inner_throughData h.2 same.2]

theorem PortableItems.inner_throughData : ∀ {items : List Value}, PortableItems items →
    UnalteredItems items → innerItems (items.map throughData) = innerItems items
  | [], _, _ => rfl
  | item :: rest, h, same => by
      rw [List.map_cons, innerItems, innerItems, Portable.inner_throughData h.1 same.1,
        PortableItems.inner_throughData h.2 same.2]

theorem PortableEntries.inner_throughData : ∀ {entries : List (Value × Value)},
    PortableEntries entries → UnalteredEntries entries →
    innerEntries (entries.map fun entry => (ofString entry.1.display, entry.2.throughData)) =
      innerEntries entries
  | [], _, _ => rfl
  | (key, value) :: rest, h, same => by
      obtain ⟨s, m, rfl⟩ := exists_text_of_isText h.1
      rw [List.map_cons, innerEntries, innerEntries, Portable.inner_throughData h.2.1 same.1,
        PortableEntries.inner_throughData h.2.2 same.2]
      rfl
end

theorem Portable.print_throughData {value : Value} (h : value.Portable) (same : value.Unaltered) :
    value.throughData.print = value.print := by
  cases value with
  | undefined | function | session | forState => exact h.elim
  | none | bool => rfl
  | text s isMarkup =>
      cases isMarkup with
      | false => rfl
      | true => exact same rfl
  | number n =>
      cases n with
      | whole n range =>
          have held : isDataInt n = true := h
          simp [throughData, toData, toData?, held, ofData, ofInt, Number.given, print,
            display, inner]
      | float x =>
          have finite : x.isFinite = true := same
          simp [throughData, toData, toData?, finite, ofData]
  | list items =>
      have inside := h.inner_throughData same
      obtain ⟨datas, found⟩ := PortableItems.exists_datas h
      rw [throughData_list found] at inside ⊢
      exact congrArg escape inside
  | map entries =>
      have inside := h.inner_throughData same
      obtain ⟨fields, found⟩ := PortableEntries.exists_fields h.2
      have texts : ∀ entry ∈ entries, entry.1.isText = true :=
        fun entry hmem => (portableEntries_iff.mp h.2 entry hmem).1
      rw [throughData_map texts found same.1] at inside ⊢
      exact congrArg escape inside

/-- What a page reads off a value, and what it reads off the same value as data. -/
inductive Counterpart : Value → Value → Prop
  | same (value : Value) : Counterpart value value
  | carried {value : Value} (h : value.Portable) : Counterpart value value.throughData

theorem Counterpart.of_option {found : Option Value} (portable : ∀ value ∈ found, value.Portable) :
    Counterpart (found.getD undefined) ((found.map throughData).getD undefined) := by
  cases found with
  | none => exact .same _
  | some value => exact .carried (portable value rfl)

theorem atIndex?_map {α β : Type} (f : α → β) (items : List α) (index : Int) :
    atIndex? (items.map f) index = (atIndex? items index).map f := by
  cases index with
  | ofNat i => exact List.getElem?_map
  | negSucc i => simp [atIndex?, ← List.map_reverse]

theorem lookup_throughData_number (n : Number) (key : Value) :
    (number n).throughData.lookup key = undefined := by
  unfold throughData toData
  cases n with
  | whole n range =>
      unfold toData?
      split <;> rfl
  | float x =>
      unfold toData?
      split <;> rfl

theorem Counterpart.lookup {first second : Value} (h : Counterpart first second) (key : Value) :
    Counterpart (first.lookup key) (second.lookup key) := by
  cases h with
  | same => exact .same _
  | carried portable =>
      cases first with
      | undefined | function | session | forState => exact portable.elim
      | none | bool | text => exact .same _
      | number n =>
          rw [lookup_throughData_number]
          exact .same _
      | list items =>
          obtain ⟨datas, found⟩ := PortableItems.exists_datas portable
          rw [throughData_list found]
          unfold Value.lookup
          cases key.index? with
          | none => exact .same _
          | some index =>
              simp only [Option.bind_some, atIndex?_map]
              exact .of_option fun item here =>
                portableItems_iff.mp portable item (mem_of_atIndex? here)
      | map entries =>
          obtain ⟨apart, portable⟩ := portable
          have each := portableEntries_iff.mp portable
          obtain ⟨fields, found⟩ := PortableEntries.exists_fields portable
          rw [lookup_throughData_map (fun entry hmem => (each entry hmem).1) found apart]
          refine .of_option fun value here => ?_
          obtain ⟨k, hmem⟩ := mem_of_valueAt? here
          exact (each (k, value) hmem).2

/-- Along every path as much is defined of a portable value as it was, and what looks the same as
data prints the same. -/
theorem Portable.read_throughData {value : Value} (h : value.Portable) (path : List Value) :
    (value.throughData.follow path).isDefined = (value.follow path).isDefined ∧
      ((value.follow path).Unaltered →
        (value.throughData.follow path).print = (value.follow path).print) := by
  have related : ∀ path first second, Counterpart first second →
      Counterpart (follow first path) (follow second path) := by
    intro path
    induction path with
    | nil => exact fun _ _ related => related
    | cons key path ih => exact fun first second related => ih _ _ (related.lookup key)
  generalize reads : value.throughData.follow path = reading
  cases reads ▸ related path _ _ (.carried h) with
  | same => exact ⟨rfl, fun _ => rfl⟩
  | carried portable =>
      refine ⟨?_, portable.print_throughData⟩
      have there : ∀ data, (ofData data).isDefined = true := fun data => by cases data <;> rfl
      rw [throughData, there]
      cases at_end : value.follow path with
      | undefined =>
          rw [at_end] at portable
          exact portable.elim
      | _ => rfl

end Value

end ThemeTemplates
