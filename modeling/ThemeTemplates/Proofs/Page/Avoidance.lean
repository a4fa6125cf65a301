import ThemeTemplates.Page.Evaluation
import ThemeTemplates.Proofs.Data.Fields
import ThemeTemplates.Render.Function

/-!
# Code and values without hidden functions

A page reaches a function by its name or by a value that holds it. Code that does not name some
hidden functions, run against values that do not hold them, never calls them: no operation on values
brings a function up that was not in its operands.
-/

namespace ThemeTemplates

variable {hidden : String → Prop}

mutual
def Value.Avoids (hidden : String → Prop) : Value → Prop
  | .function name => ¬ hidden name
  | .list items => Value.ItemsAvoid hidden items
  | .map entries => Value.EntriesAvoid hidden entries
  | .forState _ _ _ previous next => previous.Avoids hidden ∧ next.Avoids hidden
  | .undefined | .none | .bool _ | .number _ | .text _ _ | .session => True

def Value.ItemsAvoid (hidden : String → Prop) : List Value → Prop
  | [] => True
  | item :: rest => item.Avoids hidden ∧ Value.ItemsAvoid hidden rest

def Value.EntriesAvoid (hidden : String → Prop) : List (Value × Value) → Prop
  | [] => True
  | (key, value) :: rest =>
    (key.Avoids hidden ∧ value.Avoids hidden) ∧ Value.EntriesAvoid hidden rest
end

namespace Value

theorem itemsAvoid_iff {items : List Value} :
    ItemsAvoid hidden items ↔ ∀ item ∈ items, item.Avoids hidden := by
  induction items with
  | nil => simp [ItemsAvoid]
  | cons item rest ih => simp [ItemsAvoid, ih]

theorem entriesAvoid_iff {entries : List (Value × Value)} :
    EntriesAvoid hidden entries ↔
      ∀ entry ∈ entries, entry.1.Avoids hidden ∧ entry.2.Avoids hidden := by
  induction entries with
  | nil => simp [EntriesAvoid]
  | cons entry rest ih => simp [EntriesAvoid, ih]

mutual
theorem avoids_ofData : ∀ data : Data, (ofData data).Avoids hidden
  | .null | .bool _ | .int _ | .float _ | .text _ => trivial
  | .list items => itemsAvoid_ofItems items
  | .record fields => entriesAvoid_ofFields fields

theorem itemsAvoid_ofItems : ∀ items : List Data, ItemsAvoid hidden (ofItems items)
  | [] => trivial
  | item :: rest => ⟨avoids_ofData item, itemsAvoid_ofItems rest⟩

theorem entriesAvoid_ofFields :
    ∀ fields : List (String × Data), EntriesAvoid hidden (ofFields fields)
  | [] => trivial
  | (_, value) :: rest => ⟨⟨trivial, avoids_ofData value⟩, entriesAvoid_ofFields rest⟩
end

theorem ofData_ne_function (data : Data) (name : String) : ofData data ≠ .function name := by
  cases data <;> simp [ofData, ofInt, ofString]

theorem avoids_metadataValue : ∀ loop : LoopMetadata,
    (Render.metadataValue loop).Avoids hidden
  | ⟨index, iteration, remaining, count, first, last, even, odd, depth, .none⟩ => by
      simp only [Render.metadataValue, Avoids, entriesAvoid_iff, List.mem_map]
      rintro _ ⟨field, _, rfl⟩
      exact ⟨trivial, avoids_ofData _⟩
  | ⟨index, iteration, remaining, count, first, last, even, odd, depth, some outer⟩ => by
      simp only [Render.metadataValue, Avoids, entriesAvoid_iff, List.mem_append, List.mem_map,
        List.mem_singleton]
      rintro _ (⟨field, _, rfl⟩ | rfl)
      · exact ⟨trivial, avoids_ofData _⟩
      · exact ⟨trivial, avoids_metadataValue outer⟩

theorem avoids_getD {value? : Option Value}
    (h : ∀ value, value? = some value → value.Avoids hidden) :
    (value?.getD undefined).Avoids hidden := by
  cases value? with
  | none => trivial
  | some value => exact h value rfl

theorem avoids_loopFields {index length depth : Nat} {previous next : Value}
    (hprevious : previous.Avoids hidden) (hnext : next.Avoids hidden) {name : String}
    {value : Value} (h : (name, value) ∈ loopFields index length depth previous next) :
    value.Avoids hidden := by
  simp only [loopFields, List.mem_append, List.mem_map, List.mem_cons, List.not_mem_nil,
    or_false, Prod.mk.injEq] at h
  rcases h with ⟨field, _, _, rfl⟩ | ⟨_, rfl⟩ | ⟨_, rfl⟩
  · exact avoids_ofData _
  · exact hprevious
  · exact hnext

theorem mem_of_lookup_eq_some {α β : Type} [BEq α] [LawfulBEq α] {entries : List (α × β)} {key : α}
    {value : β} (h : entries.lookup key = some value) : (key, value) ∈ entries := by
  induction entries with
  | nil => simp at h
  | cons entry rest ih =>
      obtain ⟨k, v⟩ := entry
      simp only [List.lookup_cons] at h
      split at h
      · next same =>
          rw [beq_iff_eq] at same
          cases h
          exact same ▸ List.mem_cons_self
      · exact List.mem_cons_of_mem _ (ih h)

theorem Avoids.lookup {value : Value} (h : value.Avoids hidden) (key : Value) :
    (value.lookup key).Avoids hidden := by
  cases value with
  | map entries =>
      refine avoids_getD fun found hfound => ?_
      obtain ⟨k, hk⟩ := mem_of_valueAt? hfound
      exact (entriesAvoid_iff.mp h _ hk).2
  | list items =>
      refine avoids_getD fun found hfound => ?_
      obtain ⟨index, _, hindex⟩ := Option.bind_eq_some_iff.mp hfound
      exact itemsAvoid_iff.mp h _ (mem_of_atIndex? hindex)
  | text s markup =>
      simp only [Value.lookup]
      split <;> trivial
  | forState index length depth previous next =>
      cases key with
      | text name markup =>
          exact avoids_getD fun found hfound =>
            avoids_loopFields h.1 h.2 (mem_of_lookup_eq_some hfound)
      | _ => trivial
  | _ => trivial

theorem EntriesAvoid.setEntry {entries : List (Value × Value)} {key value : Value}
    (h : EntriesAvoid hidden entries) (hkey : key.Avoids hidden) (hvalue : value.Avoids hidden) :
    EntriesAvoid hidden (setEntry entries key value) := by
  induction entries with
  | nil => exact ⟨⟨hkey, hvalue⟩, trivial⟩
  | cons entry rest ih =>
      obtain ⟨k, v⟩ := entry
      simp only [Value.setEntry]
      split
      · exact ⟨⟨h.1.1, hvalue⟩, h.2⟩
      · exact ⟨⟨hkey, hvalue⟩, h⟩
      · exact ⟨h.1, ih h.2⟩

theorem avoids_mapOf {settings : List (Value × Value)} (h : EntriesAvoid hidden settings) :
    (map (settings.foldl (fun entries (key, value) => setEntry entries key value) [])).Avoids
      hidden := by
  suffices ∀ entries, EntriesAvoid hidden entries →
      EntriesAvoid hidden
        (settings.foldl (fun entries (key, value) => Value.setEntry entries key value) entries) from
    this [] trivial
  induction settings with
  | nil => exact fun entries hentries => hentries
  | cons setting rest ih =>
      intro entries hentries
      exact ih h.2 _ (hentries.setEntry h.1.1 h.1.2)

theorem Avoids.elements? {value : Value} (h : value.Avoids hidden) {elements : List Value}
    (found : value.elements? = some elements) : ∀ element ∈ elements, element.Avoids hidden := by
  cases value with
  | undefined | none =>
      cases found
      simp
  | text s markup =>
      cases found
      simp only [List.mem_map]
      rintro _ ⟨c, _, rfl⟩
      trivial
  | list items =>
      cases found
      exact itemsAvoid_iff.mp h
  | map entries =>
      cases found
      simp only [List.mem_map]
      rintro _ ⟨entry, hentry, rfl⟩
      exact (entriesAvoid_iff.mp h _ hentry).1
  | forState index length depth previous next =>
      cases found
      simp only [List.mem_map]
      rintro _ ⟨field, _, rfl⟩
      trivial
  | _ => simp [Value.elements?] at found

theorem Avoids.sum? {first second : Value} (hfirst : first.Avoids hidden)
    (hsecond : second.Avoids hidden) {value : Value} (h : first.sum? second = some value) :
    value.Avoids hidden := by
  unfold Value.sum? at h
  split at h
  · cases h
    simp only [Avoids, itemsAvoid_iff, List.mem_append] at *
    exact fun item hitem => hitem.elim (hfirst item) (hsecond item)
  · cases h
    trivial
  · simp only [Option.bind_eq_bind, Option.bind_eq_some_iff, Option.some.injEq,
      Option.pure_def] at h
    obtain ⟨_, _, _, _, _, _, rfl⟩ := h
    trivial

theorem negate?_avoids {operand value : Value} (h : operand.negate? = some value) :
    value.Avoids hidden := by
  unfold negate? at h
  split at h
  · obtain ⟨n, _, rfl⟩ := Option.map_eq_some_iff.mp h
    trivial
  · cases h

end Value

mutual
def Expression.Avoids (hidden : String → Prop) : Expression → Prop
  | .constant _ value => value.Avoids hidden
  | .named _ name => ¬ hidden name
  | .list _ items => Expression.AllAvoid hidden items
  | .map _ entries => Expression.EntriesAvoid hidden entries
  | .field base _ => base.Avoids hidden
  | .element base key => base.Avoids hidden ∧ key.Avoids hidden
  | .call _ function args => ¬ hidden function ∧ Expression.AllAvoid hidden args
  | .apply _ base args | .filter _ base _ args | .test _ base _ args =>
    base.Avoids hidden ∧ Expression.AllAvoid hidden args
  | .not operand | .negate _ operand => operand.Avoids hidden
  | .equal first others => first.Avoids hidden ∧ Expression.AllAvoid hidden others
  | .sum left right | .join left right => left.Avoids hidden ∧ right.Avoids hidden

def Expression.AllAvoid (hidden : String → Prop) : List Expression → Prop
  | [] => True
  | first :: rest => first.Avoids hidden ∧ Expression.AllAvoid hidden rest

def Expression.EntriesAvoid (hidden : String → Prop) : List (Expression × Expression) → Prop
  | [] => True
  | (key, value) :: rest =>
    (key.Avoids hidden ∧ value.Avoids hidden) ∧ Expression.EntriesAvoid hidden rest
end

/-- A variable that neither holds a hidden function nor stands in the place of one. -/
structure Value.Bindable (hidden : String → Prop) (name : String) (value : Value) : Prop where
  avoids : value.Avoids hidden
  notFunction : hidden name → ∀ function, value ≠ .function function

theorem Value.bindable_of_not_hidden {name : String} {value : Value} (h : value.Avoids hidden)
    (hname : ¬ hidden name) : value.Bindable hidden name :=
  ⟨h, fun isHidden => absurd isHidden hname⟩

theorem Value.bindable_ofData (name : String) (data : Data) :
    (Value.ofData data).Bindable hidden name :=
  ⟨Value.avoids_ofData data, fun _ => Value.ofData_ne_function data⟩

structure Frame.Avoids (hidden : String → Prop) (frame : Frame) : Prop where
  locals : ∀ name value, (name, value) ∈ frame.locals → value.Bindable hidden name
  loop : ∀ value, frame.loop = some value → ∀ name, value.Bindable hidden name

/-- A scope that holds no hidden function under any name, and no function under a hidden one. -/
structure Scope.Avoids (hidden : String → Prop) (scope : Scope) : Prop where
  frames : ∀ frame ∈ scope.frames, frame.Avoids hidden
  given : ∀ name value, (name, value) ∈ scope.given → value.Bindable hidden name

namespace Scope

theorem Avoids.find? {scope : Scope} (h : scope.Avoids hidden) {name : String} {value : Value}
    (found : scope.find? name = some value) : value.Bindable hidden name := by
  simp only [Scope.find?, Option.or_eq_some_iff] at found
  rcases found with inFrame | ⟨_, inGiven⟩
  · obtain ⟨frame, hframe, hfound⟩ := List.exists_of_findSome?_eq_some inFrame
    simp only [Frame.find?] at hfound
    split at hfound
    · next isLocal =>
        cases hfound
        exact (h.frames frame hframe).locals name value (Value.mem_of_lookup_eq_some isLocal)
    · split at hfound
      · exact (h.frames frame hframe).loop value hfound name
      · cases hfound
  · exact h.given name value (Value.mem_of_lookup_eq_some inGiven)

theorem Avoids.enter {scope : Scope} (h : scope.Avoids hidden) {frame : Frame}
    (hframe : frame.Avoids hidden) : (scope.enter frame).Avoids hidden where
  frames := by
    intro other hother
    rcases List.mem_cons.mp hother with rfl | hother
    · exact hframe
    · exact h.frames other hother
  given := h.given

theorem Avoids.leave {scope : Scope} (h : scope.Avoids hidden) : scope.leave.Avoids hidden where
  frames := fun frame hframe => h.frames frame (List.mem_of_mem_tail hframe)
  given := h.given

theorem Avoids.set {scope : Scope} (h : scope.Avoids hidden) {name : String} {value : Value}
    (hvalue : value.Bindable hidden name) : (scope.set name value).Avoids hidden := by
  obtain ⟨frames, given, included⟩ := scope
  cases frames with
  | nil =>
      refine ⟨?_, h.given⟩
      simp only [Scope.set, List.mem_singleton]
      rintro _ rfl
      refine ⟨fun n v hmem => ?_, by simp⟩
      rcases Fields.mem_insert hmem with hmem | hmem
      · cases hmem
        exact hvalue
      · cases hmem
  | cons frame outer =>
      refine ⟨?_, h.given⟩
      simp only [Scope.set, List.mem_cons]
      rintro _ (rfl | hmem)
      · refine ⟨fun n v hmem => ?_, (h.frames frame List.mem_cons_self).loop⟩
        rcases Fields.mem_insert hmem with hmem | hmem
        · cases hmem
          exact hvalue
        · exact (h.frames frame List.mem_cons_self).locals n v hmem
      · exact h.frames _ (List.mem_cons_of_mem _ hmem)

end Scope

end ThemeTemplates
