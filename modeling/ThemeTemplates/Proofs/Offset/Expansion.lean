import ThemeTemplates.Proofs.Offset.Iteration
import ThemeTemplates.Proofs.Offset.Scan
import ThemeTemplates.Source.Expansion

/-!
# Expansion by offsets

An expansion that cuts a bare iteration off the text behind its directive by its length. It is never
trapped and emits what the expansion of characters emits. With it, all readers that cut texts at
offsets are known to cut them where a character begins.
-/

namespace ThemeTemplates.Offset

/-- The bare iteration at the start of a text, and what is left of the text. -/
def takeBare (text : List Char) : Except Trap (Option (List Char × List Char)) := do
  match ← bareLength text with
  | some length =>
    let taken ← slice text 0 length
    let remaining ← sliceFrom text length
    return some (taken, remaining)
  | none => return none

/-- What a directive takes from the segment behind it, if it has no arguments and may take a bare
iteration. -/
def bareArgument (registry : Registry) (name : String) (args : List Char) :
    List Segment → Except Trap (Option (List Char × List Char))
  | .verbatim text :: _ =>
    if args.isEmpty && (registry.find? name).any (·.bareIteration) then takeBare text
      else return none
  | _ => return none

/-- The code for some segments, inside the blocks that are open before them. -/
def expandFrom (registry : Registry) (blocks : List OpenBlock) :
    List Segment → Except Trap (Except LocatedError (List Char))
  | [] => return Segment.expandFrom registry blocks []
  | .verbatim text :: rest => do
    return (← expandFrom registry blocks rest).map (text ++ ·)
  | .directive name args line :: rest => do
    let bare? ← bareArgument registry name args rest
    let given := (bare?.map (·.1)).getD args
    match Segment.expandDirective registry blocks name given line with
    | .error error => return .error { line, error }
    | .ok (blocks, code) =>
      let emitted := code ++ Segment.padding given code
      match bare? with
      | some (_, remaining) =>
        return (← expandFrom registry blocks rest.tail).map fun later =>
          emitted ++ (remaining ++ later)
      | none => return (← expandFrom registry blocks rest).map (emitted ++ ·)
termination_by segments => segments.length
decreasing_by
  all_goals
    simp only [List.length_cons, List.length_tail]
    omega

def expand (registry : Registry) (source : List Char) :
    Except Trap (Except LocatedError (List Char)) := do
  match ← scan source with
  | .ok segments => expandFrom registry [] segments
  | .error error => return .error error

theorem takeBare_eq (text : List Char) : takeBare text = .ok (splitBareIteration text) := by
  rw [takeBare, bareLength_eq, ok_bind, bareIterationLength]
  cases split : splitBareIteration text with
  | none => rfl
  | some parts =>
      obtain ⟨taken, remaining⟩ := parts
      obtain ⟨rfl, -⟩ := Iteration.spelling_of_split split
      have starts : StandsAt (taken ++ remaining) 0 (taken ++ remaining) := .start _
      have front := starts.slice_eq
      have back := starts.advance.sliceFrom_eq
      rw [Nat.zero_add] at front back
      simp only [Option.map_some, front, back, ok_bind]
      rfl

theorem bareArgument_eq (registry : Registry) (name : String) (text : List Char)
    (rest : List Segment) :
    bareArgument registry name [] (.verbatim text :: rest) =
      .ok (if (registry.find? name).any (·.bareIteration) then splitBareIteration text
        else none) := by
  simp only [bareArgument, List.isEmpty_nil, Bool.true_and, takeBare_eq]
  split_ifs <;> rfl

section

variable {registry : Registry} {rest later : List Segment}

theorem expandFrom_verbatim {blocks : List OpenBlock} (text : List Char)
    (behind : expandFrom registry blocks rest = .ok (Segment.expandFrom registry blocks later)) :
    expandFrom registry blocks (.verbatim text :: rest) =
      .ok (Segment.expandFrom registry blocks (.verbatim text :: later)) := by
  rw [expandFrom, behind, ok_bind, Segment.expandFrom, Except.bind_pure_eq_map]
  rfl

variable {name : String} {args : List Char}

/-- Nothing is taken for a directive with arguments, nor where no text follows. -/
theorem bareArgument_none
    (noBare : ∀ text following, args = [] → rest ≠ .verbatim text :: following) :
    bareArgument registry name args rest = .ok none := by
  unfold bareArgument
  split
  · next text following =>
      have given : args ≠ [] := fun empty => noBare text following empty rfl
      rw [if_neg (by simp [given])]
      rfl
  · rfl

theorem expandFrom_directive (noBare : bareArgument registry name args rest = .ok none)
    (behind : ∀ blocks, expandFrom registry blocks rest =
      .ok (Segment.expandFrom registry blocks later))
    (blocks : List OpenBlock) (line : Nat) :
    expandFrom registry blocks (.directive name args line :: rest) =
      .ok (Segment.expandFrom registry blocks (.directive name args line :: later)) := by
  rw [expandFrom, noBare, ok_bind, Segment.expandFrom]
  simp only [Option.map_none, Option.getD_none]
  cases Segment.expandDirective registry blocks name args line with
  | error error => rfl
  | ok parts =>
      simp only [behind, Except.bind_pure_eq_map]
      rfl

theorem expandFrom_bare {taken remaining : List Char}
    (bare : bareArgument registry name args rest = .ok (some (taken, remaining)))
    (behind : ∀ blocks, expandFrom registry blocks rest.tail =
      .ok (Segment.expandFrom registry blocks later))
    (blocks : List OpenBlock) (line : Nat) :
    expandFrom registry blocks (.directive name args line :: rest) =
      .ok (Segment.expandFrom registry blocks
        (.directive name taken line :: .verbatim remaining :: later)) := by
  rw [expandFrom, bare, ok_bind, Segment.expandFrom]
  simp only [Option.map_some, Option.getD_some]
  cases Segment.expandDirective registry blocks name taken line with
  | error error => rfl
  | ok parts =>
      simp only [behind, Segment.expandFrom, Except.bind_pure_eq_map, Except.map_map]
      rfl

end

theorem expandFrom_eq (registry : Registry) (segments : List Segment) (blocks : List OpenBlock) :
    expandFrom registry blocks segments =
      .ok (Segment.expandFrom registry blocks (Segment.takeBareIterations registry segments)) := by
  fun_induction Segment.takeBareIterations registry segments generalizing blocks with
  | case1 name line text rest taken? taken remaining found ih =>
      have bare := (bareArgument_eq registry name text rest).trans (congrArg Except.ok found)
      exact expandFrom_bare bare ih blocks line
  | case2 name line text rest taken? missing ih =>
      have noBare := (bareArgument_eq registry name text rest).trans (congrArg Except.ok missing)
      exact expandFrom_directive noBare (fun blocks => expandFrom_verbatim text (ih blocks))
        blocks line
  | case3 segment rest other ih =>
      cases segment with
      | verbatim text => exact expandFrom_verbatim text (ih blocks)
      | directive name args line =>
          refine expandFrom_directive (bareArgument_none fun text following empty => ?_)
            ih blocks line
          exact other name line text following (by rw [empty])
  | case4 => rw [expandFrom]; rfl

theorem expand_eq (registry : Registry) (source : List Char) :
    expand registry source = .ok (ThemeTemplates.expand registry source) := by
  rw [expand, scan_eq, ok_bind, ThemeTemplates.expand]
  cases Segment.scan source with
  | error error => rfl
  | ok segments => exact expandFrom_eq registry segments []

/-- A cut has an answer only where it is in order, within the text and on characters, octets only
within the text, and a difference only where it is not below zero. Every reader that cuts texts at
offsets gets an answer, the answer of the reader of characters. In each state that the scanner of a
source gets into, its offsets are in order, within the source and on characters, and a turn that
goes on moves the cursor forward. -/
theorem readers_never_trapped :
    (∀ text start stop, (∃ part, slice text start stop = .ok part) ↔
      start ≤ stop ∧ stop ≤ utf8Length text ∧
      (String.Pos.Raw.mk start).IsValid (String.ofList text) ∧
        (String.Pos.Raw.mk stop).IsValid (String.ofList text)) ∧
    (∀ text start, (∃ following, octetsFrom text start = .ok following) ↔ start ≤ utf8Length text) ∧
    (∀ text offset, (∃ octet, octetAt text offset = .ok octet) ↔ offset < utf8Length text) ∧
    (∀ whole part, (∃ left, minus whole part = .ok left) ↔ part ≤ whole) ∧
    (∀ text, unwrap text = .ok (ThemeTemplates.unwrap text)) ∧
    (∀ separator text, splitTopLevel separator text =
      .ok (ThemeTemplates.splitTopLevel separator text)) ∧
    (∀ directive raw, parse directive raw = .ok (Iteration.parse directive raw)) ∧
    (∀ raw, parseLoop raw = .ok (Iteration.parseLoop raw)) ∧
    (∀ text, bareLength text = .ok (bareIterationLength text)) ∧
    (∀ source, scan source = .ok (Segment.scan source)) ∧
    (∀ registry source, expand registry source = .ok (ThemeTemplates.expand registry source)) ∧
    ∀ source scanner, Reached source scanner →
      scanner.lines.offset ≤ scanner.textStart ∧ scanner.textStart ≤ scanner.cursor ∧
        scanner.cursor ≤ utf8Length source ∧
        (String.Pos.Raw.mk scanner.textStart).IsValid (String.ofList source) ∧
        (String.Pos.Raw.mk scanner.cursor).IsValid (String.ofList source) ∧
        ∃ answer, turn source scanner = .ok answer ∧
          ∀ next, answer = .goesOn next → scanner.cursor < next.cursor ∧
          next.cursor ≤ utf8Length source := by
  refine ⟨fun _ _ _ => slice_isOk_iff, fun _ _ => octetsFrom_isOk_iff, fun _ _ => octetAt_isOk_iff,
    fun _ _ => minus_isOk_iff, unwrap_eq, splitTopLevel_eq, parse_eq, parseLoop_eq,
      bareLength_eq, scan_eq,
    expand_eq, fun source scanner reached => ?_⟩
  obtain ⟨done, pending, rest, placed⟩ := reached.placed
  obtain ⟨counted, waiting, within⟩ := placed.ordered
  obtain ⟨answer, turned, agrees⟩ := turn_spec placed
  refine ⟨counted, waiting, within, isValid_iff.mpr ⟨_, placed.standsAt_text⟩,
    isValid_iff.mpr ⟨_, placed.standsAt⟩, answer, turned, ?_⟩
  rintro next rfl
  obtain ⟨onward, done', pending', rest', placed', -⟩ := agrees
  exact ⟨onward, placed'.ordered.2.2⟩

/-- A directive behind a tag whose literal has a character of two octets behind a backslash. -/
def accentedTag : List Char :=
  ['é', '\x7b', '\x7b', ' ', '\'', '\\', 'é', '\'', ' ', '\x7d', '\x7d', '@', 'i', 'f']

def pastDirective : Scanner where
  cursor := 16
  textStart := 16
  lines := { offset := 13 }
  segments := [.verbatim (accentedTag.take 11), .directive "if" [] 1]

theorem accentedTag_turns :
    Reached accentedTag { cursor := 13 } ∧
      turn accentedTag { cursor := 13 } = .ok (.goesOn pastDirective) ∧
      13 < pastDirective.cursor ∧ pastDirective.cursor ≤ utf8Length accentedTag := by
  have first : turn accentedTag {} = .ok (.goesOn { cursor := 13 }) := by with_unfolding_all rfl
  have second : turn accentedTag { cursor := 13 } = .ok (.goesOn pastDirective) := by
    with_unfolding_all rfl
  have reached : Reached accentedTag { cursor := 13 } := .turn .start (by decide) first
  obtain ⟨-, -, -, -, -, -, -, -, -, -, -, reaches⟩ := readers_never_trapped
  obtain ⟨-, -, -, -, -, answer, turned, onward⟩ := reaches accentedTag _ reached
  cases second.symm.trans turned
  exact ⟨reached, second, onward _ rfl⟩

end ThemeTemplates.Offset
