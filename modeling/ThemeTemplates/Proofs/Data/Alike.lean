import ThemeTemplates.Proofs.Data.Crossing

/-!
# Values that are read alike

Of the values that a page reads, only portable ones are read the same after they have been site
data: what data cannot hold is missing, or has become something with more to read off it.
-/

namespace ThemeTemplates

namespace Value

/-- Two values that print the same along every path, and of which the same is defined. -/
def Alike (first second : Value) : Prop :=
  ∀ path, (first.follow path).isDefined = (second.follow path).isDefined ∧
    (first.follow path).print = (second.follow path).print

mutual
/-- Functions in it have names, keys of maps are apart, and nothing is undefined under a key that is
no text. -/
def Composed : Value → Prop
  | function name => name ≠ ""
  | list items => ComposedItems items
  | map entries => KeysApart entries ∧ ComposedEntries entries
  | _ => True

def ComposedItems : List Value → Prop
  | [] => True
  | item :: rest => item.Composed ∧ ComposedItems rest

def ComposedEntries : List (Value × Value) → Prop
  | [] => True
  | (key, value) :: rest =>
    (value.isDefined = false → key.isText = true) ∧ value.Composed ∧ ComposedEntries rest
end

theorem alike_lookup {first second : Value} (h : Alike first second) (key : Value) :
    Alike (first.lookup key) (second.lookup key) :=
  fun path => h (key :: path)

theorem head?_escape (s : String) :
    (escape s).toList.head? = s.toList.head?.bind fun c => (escapeChar c).head? := by
  rw [escape, String.toList_ofList]
  cases s.toList with
  | nil => rfl
  | cons c rest =>
      rw [List.flatMap_cons, List.head?_cons, Option.bind_some]
      unfold escapeChar
      split <;> rfl

theorem escape_ne_empty {s : String} (h : s ≠ "") : escape s ≠ "" := by
  intro empty
  have gone := head?_escape s
  rw [empty] at gone
  cases chars : s.toList with
  | nil => exact h (String.toList_eq_nil_iff.mp chars)
  | cons c rest =>
      rw [chars, List.head?_cons, Option.bind_some] at gone
      unfold escapeChar at gone
      split at gone <;> cases gone

theorem toData_ne_null_of_alike {value : Value} (alike : Alike value value.throughData)
    (visible : value.print ≠ "") : value.toData ≠ .null := by
  intro lost
  refine visible ?_
  have printed := (alike []).2
  rwa [throughData, lost] at printed

theorem toData?_of_toData_ne_null {value : Value} (kept : value.toData ≠ .null) :
    value.toData? = some value.toData := by
  unfold toData at kept ⊢
  cases found : value.toData? with
  | none => exact absurd (by rw [found]; rfl) kept
  | some data => rfl

theorem print_list_ne_empty (items : List Value) : (list items).print ≠ "" :=
  escape_ne_empty (by simp [display, inner])

theorem print_map_ne_empty (entries : List (Value × Value)) : (map entries).print ≠ "" :=
  escape_ne_empty (by simp [display, inner])

theorem print_whole_ne_empty (n : Int) (range : IntRange) :
    (number (.whole n range)).print ≠ "" := by
  have written : n.repr ≠ "" := by
    cases n <;> simp [Int.repr]
  exact escape_ne_empty written

theorem compare_number_self (n : Number) : n.compare n = .eq := by
  cases n with
  | whole n _ => exact @Std.ReflCmp.compare_self Int Ord.compare _ n
  | float x => exact @Std.ReflCmp.compare_self Int Ord.compare _ (Number.floatRank x)

theorem compare_self {key : Value} (named : (fieldName? key).isSome = true) :
    key.compare key = .eq := by
  cases key with
  | number n => simp only [compare, compare_number_self]
  | bool | text | function => simp [compare]
  | session => simp [compare, kindRank]
  | undefined | none | list | map | forState => cases named

theorem valueAt?_of_mem {entries : List (Value × Value)} {entry : Value × Value}
    (apart : KeysApart entries) (named : (fieldName? entry.1).isSome = true)
    (hmem : entry ∈ entries) : valueAt? entries entry.1 = some entry.2 := by
  induction entries with
  | nil => cases hmem
  | cons first rest ih =>
      obtain ⟨other, apart⟩ := List.pairwise_cons.mp apart
      unfold valueAt? at ih ⊢
      rw [List.find?_cons]
      rcases List.mem_cons.mp hmem with rfl | later
      · simp [compare_self named]
      · rw [beq_false_of_ne (other _ later)]
        exact ih apart later

theorem composedEntries_iff {entries : List (Value × Value)} :
    ComposedEntries entries ↔ ∀ entry ∈ entries,
      (entry.2.isDefined = false → entry.1.isText = true) ∧ entry.2.Composed := by
  induction entries with
  | nil => simp [ComposedEntries]
  | cons entry rest ih => simp [ComposedEntries, ih, and_assoc]

theorem alike_of_mem_list {items : List Value} (alike : Alike (list items) (list items).throughData)
    {item : Value} (hmem : item ∈ items) : Alike item item.throughData := by
  have found := toData?_of_toData_ne_null
    (toData_ne_null_of_alike alike (print_list_ne_empty items))
  obtain ⟨datas, inside, -⟩ := Option.map_eq_some_iff.mp found
  obtain ⟨i, hi, rfl⟩ := List.getElem_of_mem hmem
  have here := alike_lookup alike (ofInt i)
  rw [throughData_list inside] at here
  have at' : ∀ (items : List Value) (hi : i < items.length),
      (list items).lookup (ofInt i) = items[i] := by
    intro items hi
    show (atIndex? items (i : Int)).getD undefined = _
    simp [atIndex?, hi]
  rwa [at' items hi, at' _ (by simpa using hi), List.getElem_map] at here

theorem fieldName?_of_entriesToData? {entries : List (Value × Value)} {fields : Fields Data}
    (found : entriesToData? entries = some fields) :
    ∀ entry ∈ entries, (fieldName? entry.1).isSome = true := by
  induction entries generalizing fields with
  | nil => exact List.forall_mem_nil _
  | cons entry rest ih =>
      obtain ⟨key, value⟩ := entry
      simp only [entriesToData?, Option.bind_eq_bind, Option.bind_eq_some_iff] at found
      obtain ⟨name, named, -, -, others, all, -⟩ := found
      exact List.forall_mem_cons.mpr ⟨Option.isSome_iff_exists.mpr ⟨name, named⟩, ih all⟩

/-- In a map that is read alike as data the keys are texts, and their values are read alike. -/
theorem alike_of_mem_map {entries : List (Value × Value)} (apart : KeysApart entries)
    (composed : ComposedEntries entries) (alike : Alike (map entries) (map entries).throughData) :
    ∀ entry ∈ entries, entry.1.isText = true ∧ Alike entry.2 entry.2.throughData := by
  have found := toData?_of_toData_ne_null
    (toData_ne_null_of_alike alike (print_map_ne_empty entries))
  obtain ⟨fields, inside, same⟩ := Option.map_eq_some_iff.mp found
  have named := fieldName?_of_entriesToData? inside
  have first : ∀ entry ∈ entries, (map entries).lookup entry.1 = entry.2 := by
    intro entry hmem
    show (valueAt? entries entry.1).getD undefined = _
    rw [valueAt?_of_mem apart (named entry hmem) hmem, Option.getD_some]
  have texts : ∀ entry ∈ entries, entry.1.isText = true := by
    intro entry hmem
    by_contra noText
    -- under a key that is no text something was defined, and nothing is any more
    have defined : entry.2.isDefined ≠ false := fun missing =>
      noText ((composedEntries_iff.mp composed entry hmem).1 missing)
    have gone := (alike_lookup alike entry.1 []).1
    rw [first entry hmem, throughData, ← same] at gone
    exact defined (gone.trans (congrArg isDefined (lookup_record_noText (by simpa using noText) _)))
  refine fun entry hmem => ⟨texts entry hmem, ?_⟩
  have here := alike_lookup alike entry.1
  have second : (map entries).throughData.lookup entry.1 = entry.2.throughData := by
    rw [lookup_throughData_map texts inside apart, valueAt?_of_mem apart (named entry hmem) hmem]
    rfl
  rwa [first entry hmem, second] at here

/-- A text has characters, which the value that it is the name of does not have. -/
theorem not_alike_of_name {value : Value} {name : String} (named : value.toData = .text name)
    (visible : name ≠ "") (bare : value.lookup (ofInt 0) = undefined) :
    ¬ Alike value value.throughData := by
  intro alike
  have first := (alike [ofInt 0]).1
  rw [throughData, named] at first
  cases chars : name.toList with
  | nil => exact visible (String.toList_eq_nil_iff.mp chars)
  | cons c rest =>
      have there : (ofString name).lookup (ofInt 0) = ofString c.toString := by
        have first : atIndex? name.toList 0 = some c := by
          rw [chars]
          rfl
        have index : (ofInt 0).index? = some 0 := rfl
        simp only [ofString, lookup, index, Option.bind_some, first]
      simp only [follow, List.foldl_cons, List.foldl_nil, bare, ofData, there] at first
      cases first

/-- The state of a loop is shown in angle brackets, what it becomes in braces. -/
theorem not_alike_forState (index length depth : Nat) (previous next : Value) :
    ¬ Alike (forState index length depth previous next)
      (forState index length depth previous next).throughData := by
  intro alike
  have bracket : (forState index length depth previous next).print.toList.head? = some '&' := by
    rw [print, head?_escape]
    · have begins : (forState index length depth previous next).display.toList.head? =
          some '<' := by
        simp only [display, inner, String.toList_append, List.head?_append]
        rfl
      rw [begins]
      rfl
    all_goals simp
  have found := toData?_of_toData_ne_null (toData_ne_null_of_alike alike fun empty => by
    rw [empty] at bracket
    cases bracket)
  obtain ⟨fields, same⟩ : ∃ fields,
      (forState index length depth previous next).toData = .record fields := by
    unfold toData? at found
    split at found
    · simp only [Option.bind_eq_bind, Option.bind_eq_some_iff, Option.pure_def,
        Option.some.injEq] at found
      obtain ⟨_, -, _, -, same⟩ := found
      exact ⟨_, same.symm⟩
    · cases found
  have brace : (ofData (.record fields)).print.toList.head? = some '\x7b' := by
    rw [ofData, print, head?_escape]
    · have begins : (map (ofFields fields)).display.toList.head? = some '\x7b' := by
        simp only [display, inner, String.toList_append, List.head?_append]
        rfl
      rw [begins]
      rfl
    all_goals simp
  have printed := (alike []).2
  rw [throughData, same] at printed
  have differ := bracket.symm.trans ((congrArg (fun s => s.toList.head?) printed).trans brace)
  exact absurd differ (by decide)

mutual
theorem portable_of_alike : ∀ {value : Value}, value.Composed → Alike value value.throughData →
    value.Portable
  | .undefined, _, alike => nomatch (alike []).1
  | .none, _, _ | .bool _, _, _ | .text _ _, _, _ | .number (.float _), _, _ => trivial
  | .number (.whole n range), _, alike => by
      have kept := toData_ne_null_of_alike alike (print_whole_ne_empty n range)
      by_contra large
      have large : isDataInt n ≠ true := large
      exact kept (by simp [toData, toData?, large])
  | .list items, composed, alike =>
      portableItems_of_alike composed fun _ hmem => alike_of_mem_list alike hmem
  | .map entries, composed, alike =>
      ⟨composed.1, portableEntries_of_alike composed.2
        (alike_of_mem_map composed.1 composed.2 alike)⟩
  | .function _, composed, alike => (not_alike_of_name rfl composed rfl alike).elim
  | .session, _, alike => (not_alike_of_name rfl (by decide) rfl alike).elim
  | .forState .., _, alike => (not_alike_forState _ _ _ _ _ alike).elim

theorem portableItems_of_alike : ∀ {items : List Value}, ComposedItems items →
    (∀ item ∈ items, Alike item item.throughData) → PortableItems items
  | [], _, _ => trivial
  | _ :: _, composed, alike =>
      have ⟨here, later⟩ := List.forall_mem_cons.mp alike
      ⟨portable_of_alike composed.1 here, portableItems_of_alike composed.2 later⟩

theorem portableEntries_of_alike : ∀ {entries : List (Value × Value)}, ComposedEntries entries →
    (∀ entry ∈ entries, entry.1.isText = true ∧ Alike entry.2 entry.2.throughData) →
    PortableEntries entries
  | [], _, _ => trivial
  | (_, _) :: _, composed, alike =>
      have ⟨here, later⟩ := List.forall_mem_cons.mp alike
      ⟨here.1, portable_of_alike composed.2.1 here.2, portableEntries_of_alike composed.2.2 later⟩
end

end Value

end ThemeTemplates
