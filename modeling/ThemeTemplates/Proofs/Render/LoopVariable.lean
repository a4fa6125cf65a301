import ThemeTemplates.Proofs.Data.RoundTrip
import ThemeTemplates.Proofs.Render.Law

/-!
# The variable of the loops

What a template finds in `blade_loop` is the metadata of the innermost loop around it: set by the
loop inside its body and behind its end, and handed on to partials as site data.
-/

namespace ThemeTemplates

namespace LoopMetadata

open Value

theorem entriesToData?_ownFields (loop : LoopMetadata) :
    entriesToData? (loop.ownFields.map fun field => (ofString field.1, ofData field.2)) =
      if [loop.index, loop.iteration, loop.remaining, loop.count, loop.depth].all
        (fun number => isDataInt number) then some loop.ownFields else none := by
  by_cases h : [loop.index, loop.iteration, loop.remaining, loop.count, loop.depth].all
      (fun number => isDataInt number) = true
  · rw [if_pos h]
    simp only [List.all_cons, List.all_nil, Bool.and_true, Bool.and_eq_true] at h
    obtain ⟨h₁, h₂, h₃, h₄, h₅⟩ := h
    simp [ownFields, entriesToData?, fieldName?, ofString, ofData, ofInt, Number.given, toData?, h₁,
      h₂, h₃, h₄, h₅]
  · rw [if_neg h]
    cases found : entriesToData?
      (loop.ownFields.map fun field => (ofString field.1, ofData field.2)) with
    | none => rfl
    | some fields =>
        refine absurd ?_ h
        simp only [ownFields, List.map_cons, List.map_nil, entriesToData?, fieldName?,
          ofString, ofData, ofInt, Number.given, toData?, Option.bind_eq_bind,
          Option.bind_eq_some_iff] at found
        simp only [List.all_cons, List.all_nil, Bool.and_true, Bool.and_eq_true]
        grind

theorem toData?_metadataValue : ∀ loop : LoopMetadata,
    (Render.metadataValue loop).toData? = if loop.fits = true then some loop.toData else none
  | ⟨index, iteration, remaining, count, first, last, even, odd, depth, Option.none⟩ => by
      have own := entriesToData?_ownFields
        ⟨index, iteration, remaining, count, first, last, even, odd, depth, Option.none⟩
      unfold Render.metadataValue toData? fits toData
      simp only [own]
      split <;> rfl
  | ⟨index, iteration, remaining, count, first, last, even, odd, depth, some outer⟩ => by
      have own := entriesToData?_ownFields
        ⟨index, iteration, remaining, count, first, last, even, odd, depth, some outer⟩
      have parent := toData?_metadataValue outer
      unfold Render.metadataValue toData? fits toData
      simp only [entriesToData?_append, own]
      simp only [entriesToData?, parent, fieldName?, ofString]
      by_cases fit : [index, iteration, remaining, count, depth].all
          (fun number => isDataInt number) = true
      · by_cases fitOuter : outer.fits = true
        · simp [fit, fitOuter]
        · simp [fit, fitOuter]
      · simp [fit]

theorem toData_metadataValue (loop : LoopMetadata) :
    (Render.metadataValue loop).toData = loop.json := by
  unfold Value.toData json
  rw [toData?_metadataValue]
  split <;> rfl

theorem canonical_json (loop : LoopMetadata) : loop.json.Canonical := by
  rw [← toData_metadataValue]
  exact canonical_toData _

end LoopMetadata

theorem Turn.value_eq : ∀ enclosing : List Turn, value enclosing =
    match metadata? enclosing with
    | some metadata => Render.metadataValue metadata
    | none => .undefined
  | [] => rfl
  | [_] => rfl
  | _ :: outer :: rest => by
      have inner := value_eq (outer :: rest)
      rw [value, inner]
      rfl

/-! ### Scopes -/

theorem Render.find?_look {σ : Type} (render : Render σ) (site : Site) (state : RenderState σ)
    (name : String) : (render.look site state).find? name = site.scope.data? name := by
  unfold Scope.data?
  cases found : site.scope.find? name <;> simp [Render.look, found]

theorem not_isHidden_loopVariable : ¬ Token.IsHidden Turn.loopVariable := by
  unfold Token.IsHidden
  decide +kernel

theorem not_isHidden_loop : ¬ Token.IsHidden "loop" := by
  unfold Token.IsHidden
  decide +kernel

theorem isHidden_sessionVariable : Token.IsHidden Render.sessionVariable :=
  ⟨"snap_render".toList, by decide +kernel⟩

/-- A scope with nothing under a name that begins with two underscores but the handle of the
render. -/
structure Scope.Clear (scope : Scope) : Prop where
  frames : ∀ frame ∈ scope.frames, ∀ name, Token.IsHidden name → frame.find? name = none
  given : ∀ name, Token.IsHidden name →
    scope.given.find? name = if name = Render.sessionVariable then some .session else none

namespace Scope.Clear

variable {scope : Scope} {name : String} {value : Value}

theorem find? (h : scope.Clear) (hidden : Token.IsHidden name) :
    scope.find? name = if name = Render.sessionVariable then some .session else none := by
  have nowhere : (scope.frames.findSome? fun frame => frame.find? name) = none :=
    List.findSome?_eq_none_iff.mpr fun frame hmem => h.frames frame hmem name hidden
  rw [Scope.find?, nowhere, Option.none_or, h.given name hidden]

theorem enter (h : scope.Clear) (visible : ¬ Token.IsHidden name) (loop : Option Value) :
    (scope.enter { locals := [(name, value)], loop }).Clear where
  frames := by
    intro frame hmem other hidden
    rcases List.mem_cons.mp hmem with rfl | hmem
    · have apart : other ≠ name := fun same => visible (same ▸ hidden)
      have noLoop : other ≠ "loop" := fun same => not_isHidden_loop (same ▸ hidden)
      simp [Frame.find?, Fields.find?_cons, apart, noLoop]
    · exact h.frames frame hmem other hidden
  given := h.given

theorem leave (h : scope.Clear) : scope.leave.Clear where
  frames := fun frame hmem => h.frames frame (List.mem_of_mem_tail hmem)
  given := h.given

theorem set (h : scope.Clear) (visible : ¬ Token.IsHidden name) (value : Value) :
    (scope.set name value).Clear := by
  obtain ⟨frames, given, included⟩ := scope
  have apart : ∀ other, Token.IsHidden other → other ≠ name := fun _ hidden same =>
    visible (same ▸ hidden)
  cases frames with
  | nil =>
      refine ⟨fun frame hmem other hidden => ?_, h.given⟩
      have noLoop : other ≠ "loop" := fun same => not_isHidden_loop (same ▸ hidden)
      cases List.mem_singleton.mp hmem
      simp [Frame.find?, Fields.find?_insert, apart other hidden, noLoop]
  | cons inner outer =>
      refine ⟨fun frame hmem other hidden => ?_, h.given⟩
      rcases List.mem_cons.mp hmem with rfl | hmem
      · have before := h.frames inner List.mem_cons_self other hidden
        simpa [Frame.find?, Fields.find?_insert, apart other hidden] using before
      · exact h.frames frame (List.mem_cons_of_mem _ hmem) other hidden

end Scope.Clear

theorem Scope.find?_set (scope : Scope) (name : String) (value : Value) :
    (scope.set name value).find? name = some value := by
  obtain ⟨frames, given, included⟩ := scope
  cases frames <;> simp [Scope.set, Scope.find?, Frame.find?, Fields.find?_insert]

/-- A clear scope inside some loops, whose variable shows the innermost. -/
structure Scope.Lawful (enclosing : List Turn) (scope : Scope) : Prop extends scope.Clear where
  shows : scope.data? Turn.loopVariable = (Turn.metadata? enclosing).map LoopMetadata.json

theorem Scope.Clear.lawful_set {scope : Scope} (h : scope.Clear) (enclosing : List Turn) :
    (scope.set Turn.loopVariable (Turn.value enclosing)).Lawful enclosing where
  toClear := h.set not_isHidden_loopVariable _
  shows := by
    rw [Scope.data?, Scope.find?_set, Turn.value_eq]
    cases Turn.metadata? enclosing with
    | none => rfl
    | some metadata =>
        have isData : (Render.metadataValue metadata).isData = true := by
          unfold Render.metadataValue
          split <;> rfl
        simp [isData, LoopMetadata.toData_metadataValue]

/-! ### Partials -/

/-- Data that set neither the variable of the loops nor a name that begins with two underscores. -/
def Ordinary (data : ViewData) : Prop :=
  ∀ field ∈ data, field.1 ≠ Turn.loopVariable ∧ ¬ Token.IsHidden field.1

theorem Ordinary.nil : Ordinary [] :=
  List.forall_mem_nil _

structure Handed (enclosing : List Turn) (data : ViewData) : Prop where
  hidden : ∀ name, Token.IsHidden name → data.find? name = none
  shows : data.find? Turn.loopVariable = (Turn.metadata? enclosing).map LoopMetadata.json

theorem Fields.find?_eq_none {α : Type} {fields : Fields α} {name : String}
    (h : ∀ field ∈ fields, field.1 ≠ name) : fields.find? name = none := by
  induction fields with
  | nil => rfl
  | cons field rest ih =>
      obtain ⟨key, value⟩ := field
      rw [Fields.find?_cons, if_neg (fun same => h (key, value) List.mem_cons_self same.symm)]
      exact ih fun other hmem => h other (List.mem_cons_of_mem _ hmem)

theorem Fields.find?_mapValues {α β : Type} (f : α → β) (fields : Fields α) (name : String) :
    (fields.mapValues f).find? name = (fields.find? name).map f := by
  induction fields with
  | nil => rfl
  | cons field rest ih =>
      obtain ⟨key, value⟩ := field
      change Fields.find? ((key, f value) :: Fields.mapValues f rest) name = _
      rw [Fields.find?_cons, Fields.find?_cons, ih]
      split <;> rfl

theorem Ordinary.handed {data : ViewData} (h : Ordinary data) : Handed [] data where
  hidden := fun _ hidden => Fields.find?_eq_none fun field hmem same =>
    (h field hmem).2 (same ▸ hidden)
  shows := Fields.find?_eq_none fun field hmem => (h field hmem).1

theorem Ordinary.find?_reverse {data : ViewData} (h : Ordinary data) {name : String}
    (special : name = Turn.loopVariable ∨ Token.IsHidden name) :
    Fields.find? data.reverse name = none := by
  refine Fields.find?_eq_none fun field hmem same => ?_
  obtain ⟨apart, visible⟩ := h field (List.mem_reverse.mp hmem)
  rcases special with special | special
  · exact apart (same.trans special)
  · exact visible (same ▸ special)

theorem isData_ofData (data : Data) : (Value.ofData data).isData = true := by
  cases data <;> rfl

theorem Scope.ne_of_isInherited {name : String} (inherited : Scope.isInherited name = true) :
    name ≠ "loop" ∧ name ≠ Render.sessionVariable := by
  constructor <;> rintro rfl
  · revert inherited
    decide +kernel
  · revert inherited
    decide +kernel

theorem Render.find?_context {name : String} (apart : name ≠ Render.sessionVariable)
    (data : ViewData) :
    Scope.find? { given := Render.context data } name = (data.find? name).map Value.ofData := by
  simp [Scope.find?, Frame.find?, Render.context, Fields.find?_insert, apart,
    Fields.find?_mapValues]

theorem Render.find?_given {name : String} (inherited : Scope.isInherited name = true)
    (data : ViewData) :
    Scope.find? { given := Render.context data } name = (data.find? name).map Value.ofData :=
  Render.find?_context (Scope.ne_of_isInherited inherited).2 data

theorem Handed.lawful {enclosing : List Turn} {data : ViewData} (h : Handed enclosing data) :
    Scope.Lawful enclosing { given := Render.context data } where
  frames := by
    intro frame hmem name hidden
    have noLoop : name ≠ "loop" := fun same => not_isHidden_loop (same ▸ hidden)
    cases List.mem_singleton.mp hmem
    simp [Frame.find?, noLoop]
  given := by
    intro name hidden
    rw [Render.context, Fields.find?_insert, Fields.find?_mapValues, h.hidden name hidden]
    rfl
  shows := by
    rw [Scope.data?, Render.find?_given (by decide +kernel), h.shows]
    cases Turn.metadata? enclosing with
    | none => rfl
    | some metadata =>
        simp [isData_ofData, Value.toData_ofData metadata.canonical_json]

theorem Fields.find?_filterMap {α : Type} (g : String → Option α) (names : List String)
    (name : String) :
    Fields.find? (names.filterMap fun other => (g other).map fun value => (other, value)) name =
      if name ∈ names then g name else none := by
  induction names with
  | nil => rfl
  | cons other rest ih =>
      rw [List.filterMap_cons]
      cases found : g other with
      | none =>
          simp only [Option.map_none, ih, List.mem_cons]
          by_cases same : name = other
          · subst same
            simp [found]
          · simp [same]
      | some value =>
          simp only [Option.map_some, Fields.find?_cons, ih, List.mem_cons]
          by_cases same : name = other
          · subst same
            simp [found]
          · simp [same]

theorem Scope.mem_names {scope : Scope} {name : String} {value : Value}
    (found : scope.find? name = some value) (noLoop : name ≠ "loop") : name ∈ scope.names := by
  simp only [Scope.find?, Option.or_eq_some_iff] at found
  rcases found with inFrame | ⟨-, inGiven⟩
  · obtain ⟨frame, hframe, hfound⟩ := List.exists_of_findSome?_eq_some inFrame
    simp only [Frame.find?] at hfound
    split at hfound
    · next isLocal =>
        have hmem := Value.mem_of_lookup_eq_some isLocal
        exact List.mem_append_left _
          (List.mem_flatMap.mpr ⟨frame, hframe, List.mem_map.mpr ⟨_, hmem, rfl⟩⟩)
    · split at hfound
      · next isLoop => exact absurd (beq_iff_eq.mp isLoop) noLoop
      · cases hfound
  · exact List.mem_append_right _
      (List.mem_map.mpr ⟨_, Value.mem_of_lookup_eq_some inGiven, rfl⟩)

theorem Scope.find?_inheritable (scope : Scope) (name : String) :
    scope.inheritable.find? name = if Scope.isInherited name then scope.data? name else none := by
  have settings : (scope.names.filterMap fun name =>
      if Scope.isInherited name then
        (scope.find? name).bind fun value =>
          if value.isData then some (name, value.toData) else none
      else none) = scope.names.filterMap fun other =>
        (if Scope.isInherited other then scope.data? other else none).map fun data =>
          (other, data) := by
    refine List.filterMap_congr fun other _ => ?_
    by_cases inherited : Scope.isInherited other = true
    · simp only [inherited, if_true, Scope.data?]
      cases scope.find? other with
      | none => rfl
      | some value => cases held : value.isData <;> simp [held]
    · simp [inherited]
  rw [Scope.inheritable, settings, Fields.ofList, Fields.find?_overlay, ← List.filterMap_reverse,
    Fields.find?_filterMap, Fields.find?_nil, Option.or_none]
  by_cases known : name ∈ scope.names
  · simp [known]
  · by_cases inherited : Scope.isInherited name = true
    · have noLoop : name ≠ "loop" := by
        rintro rfl
        simp [Scope.isInherited] at inherited
      have unknown : scope.find? name = none := by
        cases found : scope.find? name with
        | none => rfl
        | some value => exact absurd (Scope.mem_names found noLoop) known
      simp [known, inherited, Scope.data?, unknown]
    · simp [inherited]

/-- The data of a partial: explicit data first, then defaults, then what is inherited. -/
theorem View.find?_resolveChild {defaults : DefaultsProvider} {template : String}
    {inherited data merged : ViewData}
    (resolved : View.resolveChild defaults template inherited data = .ok merged) :
    ∃ layer, defaults template = .ok layer ∧ ∀ name, merged.find? name =
      (Fields.find? data.reverse name).or
        ((Fields.find? layer.reverse name).or (inherited.find? name)) := by
  unfold View.resolveChild DefaultsProvider.layer at resolved
  cases supplied : defaults template with
  | error error =>
      rw [supplied] at resolved
      cases resolved
  | ok layer =>
      rw [supplied] at resolved
      cases resolved
      exact ⟨layer, rfl, fun name => by rw [Fields.find?_overlay, Fields.find?_overlay]⟩

theorem Scope.Lawful.handed {enclosing : List Turn} {scope : Scope} (h : scope.Lawful enclosing)
    {defaults : DefaultsProvider} {template : String}
    (plain : ∀ template layer, defaults template = .ok layer → Ordinary layer)
    {data merged : ViewData} (ordinary : Ordinary data)
    (resolved : View.resolveChild defaults template scope.inheritable data = .ok merged) :
    Handed enclosing merged := by
  obtain ⟨layer, supplied, settings⟩ := View.find?_resolveChild resolved
  have inherited : ∀ name, name = Turn.loopVariable ∨ Token.IsHidden name →
      merged.find? name = scope.inheritable.find? name := by
    intro name special
    rw [settings, ordinary.find?_reverse special,
      (plain template layer supplied).find?_reverse special, Option.none_or, Option.none_or]
  refine ⟨fun name hidden => ?_, ?_⟩
  · rw [inherited name (.inr hidden), Scope.find?_inheritable, if_neg]
    have starts : "__".toList.isPrefixOf name.toList = true := List.isPrefixOf_iff_prefix.mpr hidden
    rw [Scope.isInherited, starts, Bool.not_true, Bool.and_false]
    exact Bool.false_ne_true
  · rw [inherited _ (.inl rfl), Scope.find?_inheritable, if_pos (by decide +kernel), h.shows]

end ThemeTemplates
