import Mathlib.Data.List.Forall2
import ThemeTemplates.Proofs.Directive.LineBreaks
import ThemeTemplates.Proofs.Directive.Seal
import ThemeTemplates.Proofs.Source.Pieces

/-!
# Line numbers

What a source expands to is in step with it, piece by piece: each segment that is expanded was read
off one piece of the source, is replaced by code of as many line breaks, and so starts on one line
in both.
-/

namespace ThemeTemplates

/-- The pieces of a source off which a segment is read. -/
inductive Segment.Covers : List Char → Segment → Prop
  | text (text : List Char) : Covers text (.verbatim text)
  | escape {text : List Char} (marked : ∀ c ∈ text.getLast?, c = '@') :
    Covers (text ++ ['@']) (.verbatim text)
  | directive {name blanks : List Char} (args : List Char) (line : Nat)
    (letters : ∀ c ∈ name, isWordChar c = true) (gap : ∀ c ∈ blanks, isSpaceOrTab c = true) :
    Covers ('@' :: (name ++ (blanks ++ args))) (.directive (String.ofList name) args line)

inductive Segment.Emits (registry : Registry) : Segment → List Char → Prop
  | text (text : List Char) : Emits registry (.verbatim text) text
  | directive {name : String} {args emitted : List Char} {entry : Directive} (line : Nat)
    (known : registry.find? name = some entry) (expanded : entry.expand args = .ok emitted) :
    Emits registry (.directive name args line) (emitted ++ padding args emitted)

/-- A piece of a source, the segment read off it and the code that the segment is replaced by. -/
structure Passage where
  piece : List Char
  segment : Segment
  code : List Char

/-- Whether a passage can come about in an expansion. -/
structure Passage.Follows (registry : Registry) (passage : Passage) : Prop where
  covers : Segment.Covers passage.piece passage.segment
  emits : Segment.Emits registry passage.segment passage.code

/-! ### The pieces of what is expanded -/

theorem Pieces.covers {before : List Char} {pieces : List (List Char)} {segments : List Segment}
    (h : Pieces before pieces segments) : List.Forall₂ Segment.Covers pieces segments := by
  induction h with
  | nil => exact .nil
  | text _ _ _ _ ih => exact .cons (.text _) ih
  | @escape before text _ _ _ _ ih =>
      have split : text ++ ['@', '@'] = (text ++ ['@']) ++ ['@'] := by simp
      exact .cons (split ▸ .escape (by simp)) ih
  | directive _ _ letters _ gap _ _ ih => exact .cons (.directive _ _ letters gap) ih

namespace Segment

theorem Covers.take {name : String} {line : Nat} {called piece taken remaining : List Char}
    (directive : Covers called (.directive name [] line))
    (text : Covers piece (.verbatim (taken ++ remaining))) :
    Covers (called ++ taken) (.directive name taken line) ∧
      ∃ piece', piece = taken ++ piece' ∧ Covers piece' (.verbatim remaining) := by
  constructor
  · cases directive with
    | @directive name blanks _ _ letters gap =>
        have whole : '@' :: (name ++ (blanks ++ [])) ++ taken =
            '@' :: (name ++ (blanks ++ taken)) := by
          simp
        exact whole ▸ .directive taken line letters gap
  · cases text with
    | text => exact ⟨remaining, rfl, .text remaining⟩
    | escape marked =>
        refine ⟨remaining ++ ['@'], by simp, .escape fun c last => marked c ?_⟩
        rw [Option.mem_def] at last ⊢
        rw [List.getLast?_append, last]
        rfl

theorem covers_takeBareIterations (registry : Registry) (segments : List Segment) :
    ∀ pieces, List.Forall₂ Covers pieces segments → ∃ pieces', pieces'.flatten = pieces.flatten ∧
      List.Forall₂ Covers pieces' (takeBareIterations registry segments) := by
  fun_induction takeBareIterations registry segments with
  | case1 name line text rest taken? taken remaining bare ih =>
      intro pieces h
      obtain ⟨called, _, directive, later, rfl⟩ := List.forall₂_cons_right_iff.mp h
      obtain ⟨piece, pieces, spelled, covered, rfl⟩ := List.forall₂_cons_right_iff.mp later
      obtain ⟨pieces', same, covered'⟩ := ih pieces covered
      rw [(Iteration.bare_of_split (accepts_of_taken bare).2).1] at spelled
      obtain ⟨longer, piece', rfl, shorter⟩ := directive.take spelled
      exact ⟨(called ++ taken) :: piece' :: pieces', by simp [same],
        .cons longer (.cons shorter covered')⟩
  | case2 name line text rest taken? bare ih =>
      intro pieces h
      obtain ⟨called, _, directive, later, rfl⟩ := List.forall₂_cons_right_iff.mp h
      obtain ⟨piece, pieces, spelled, covered, rfl⟩ := List.forall₂_cons_right_iff.mp later
      obtain ⟨pieces', same, covered'⟩ := ih pieces covered
      exact ⟨called :: piece :: pieces', by simp [same], .cons directive (.cons spelled covered')⟩
  | case3 segment rest _ ih =>
      intro pieces h
      obtain ⟨piece, pieces, first, later, rfl⟩ := List.forall₂_cons_right_iff.mp h
      obtain ⟨pieces', same, covered'⟩ := ih pieces later
      exact ⟨piece :: pieces', by simp [same], .cons first covered'⟩
  | case4 => exact fun pieces h => ⟨pieces, rfl, h⟩

/-! ### The code of what is expanded -/

variable {registry : Registry} {segments : List Segment} {code : List Char}

theorem emits_of_expandFrom {blocks : List OpenBlock}
    (h : expandFrom registry blocks segments = .ok code) :
    ∃ codes : List (List Char), codes.flatten = code ∧
    List.Forall₂ (Emits registry) segments codes := by
  induction segments generalizing blocks code with
  | nil =>
      obtain ⟨-, rfl⟩ := expandFrom_nil h
      exact ⟨[], rfl, .nil⟩
  | cons segment rest ih =>
      cases segment with
      | verbatim text =>
          obtain ⟨later, found, rfl⟩ := expandFrom_verbatim h
          obtain ⟨codes, rfl, emits⟩ := ih found
          exact ⟨text :: codes, rfl, .cons (.text text) emits⟩
      | directive name args line =>
          obtain ⟨between, emitted, later, here, found, rfl⟩ := expandFrom_directive h
          obtain ⟨entry, known, -, expanded⟩ := expandDirective_ok here
          obtain ⟨codes, rfl, emits⟩ := ih found
          exact ⟨_ :: codes, rfl, .cons (.directive line known expanded) emits⟩

theorem lineBreaks_padding (args code : List Char) :
    lineBreaks (padding args code) = lineBreaks args - lineBreaks code := by
  unfold padding
  split
  · next none => rw [none]; rfl
  · simp [lineBreaks]

theorem lineBreaks_eq_of_sparing {piece : List Char} {segment : Segment}
    (sparing : ∀ name entry, registry.find? name = some entry → entry.Sparing)
    (covers : Covers piece segment) (emits : Emits registry segment code) :
    lineBreaks piece = lineBreaks code := by
  cases emits with
  | text =>
      cases covers with
      | text => rfl
      | escape => simp [lineBreaks]
  | directive _ known expanded =>
      cases covers with
      | directive _ _ letters gap =>
          have few := sparing _ _ known _ _ expanded
          rw [lineBreaks_directive letters gap, lineBreaks_append, lineBreaks_padding]
          omega

end Segment

namespace Passage

variable {registry : Registry} {passages : List Passage}

theorem exists_of_forall₂ {pieces codes : List (List Char)} {segments : List Segment}
    (covers : List.Forall₂ Segment.Covers pieces segments)
    (emits : List.Forall₂ (Segment.Emits registry) segments codes) : ∃ passages : List Passage,
      passages.map segment = segments ∧ passages.flatMap piece = pieces.flatten ∧
        passages.flatMap code = codes.flatten ∧ ∀ passage ∈ passages, passage.Follows registry := by
  induction covers generalizing codes with
  | nil =>
      cases emits
      exact ⟨[], rfl, rfl, rfl, by simp⟩
  | @cons piece segment _ _ covered _ ih =>
      obtain ⟨code, _, emitted, later, rfl⟩ := List.forall₂_cons_left_iff.mp emits
      obtain ⟨passages, rfl, pieces, codes, follow⟩ := ih later
      refine ⟨⟨piece, segment, code⟩ :: passages, rfl, by simp [pieces], by simp [codes], ?_⟩
      exact List.forall_mem_cons.mpr ⟨⟨covered, emitted⟩, follow⟩

theorem lineBreaks_flatMap
    (sparing : ∀ name entry, registry.find? name = some entry → entry.Sparing)
    (follow : ∀ passage ∈ passages, passage.Follows registry) :
    lineBreaks (passages.flatMap piece) = lineBreaks (passages.flatMap code) := by
  induction passages with
  | nil => rfl
  | cons passage rest ih =>
      obtain ⟨first, later⟩ := List.forall_mem_cons.mp follow
      rw [List.flatMap_cons, List.flatMap_cons, lineBreaks_append, lineBreaks_append, ih later,
        Segment.lineBreaks_eq_of_sparing sparing first.covers first.emits]

end Passage

theorem passages_of_expand {registry : Registry} {source code : List Char}
    (expanded : expand registry source = .ok code) : ∃ segments, ∃ passages : List Passage,
      Segment.scan source = .ok segments ∧
        passages.map Passage.segment = Segment.takeBareIterations registry segments ∧
        passages.flatMap Passage.piece = source ∧ passages.flatMap Passage.code = code ∧
        ∀ passage ∈ passages, passage.Follows registry := by
  obtain ⟨segments, scanned, found⟩ := Except.bind_eq_ok_iff.mp expanded
  obtain ⟨pieces, whole, spelled⟩ := pieces_of_scan scanned
  obtain ⟨pieces', same, covers⟩ := Segment.covers_takeBareIterations registry _ _ spelled.covers
  obtain ⟨codes, printed, emits⟩ := Segment.emits_of_expandFrom found
  obtain ⟨passages, read, cut, replaced, follow⟩ := Passage.exists_of_forall₂ covers emits
  exact ⟨segments, passages, scanned, read, cut.trans (same.trans whole), replaced.trans printed,
    follow⟩

/-- Expansion keeps line numbers. The built-in directives emit no more line breaks than the
arguments they accept hold. With any directives of that kind, a source that expands is cut into
passages, one for each segment that is expanded; every passage starts on one line in the source and
in the code, and both have as many line breaks. -/
theorem lineBreaks_expand (registry : Registry) (source : List Char) :
    (∀ entry ∈ Builtin.directives, entry.Sparing) ∧
      ((∀ name entry, registry.find? name = some entry → entry.Sparing) → ∀ code,
        expand registry source = .ok code → ∃ segments, ∃ passages : List Passage,
          Segment.scan source = .ok segments ∧
            passages.map Passage.segment = Segment.takeBareIterations registry segments ∧
            passages.flatMap Passage.piece = source ∧ passages.flatMap Passage.code = code ∧
            (∀ passage ∈ passages, passage.Follows registry) ∧
            (∀ front passage back, passages = front ++ passage :: back →
              lineBreaks (front.flatMap Passage.piece) = lineBreaks (front.flatMap Passage.code)) ∧
            lineBreaks source = lineBreaks code) := by
  refine ⟨fun _ => Builtin.sparing_of_mem, fun sparing code expanded => ?_⟩
  obtain ⟨segments, passages, scanned, read, cut, replaced, follow⟩ := passages_of_expand expanded
  refine ⟨segments, passages, scanned, read, cut, replaced, follow, ?_, ?_⟩
  · rintro front passage back rfl
    exact Passage.lineBreaks_flatMap sparing fun passage hmem => follow passage (by simp [hmem])
  · rw [← cut, ← replaced]
    exact Passage.lineBreaks_flatMap sparing follow

/-- A directive that drops a line break of its arguments, and text behind it. -/
def spanningCall : List Char :=
  "@action(\n  'a',\n  $post)!".toList

def spanningCode : List Char :=
  "\x7b\x7b __invoke('action', 'a',\n  post) \x7d\x7d\x7b#\n#\x7d!".toList

theorem spanningCall_keeps_lines : expand Registry.builtin spanningCall = .ok spanningCode ∧
    lineBreaks spanningCall = lineBreaks spanningCode := by
  have expanded : expand Registry.builtin spanningCall = .ok spanningCode := by
    decide +kernel
  obtain ⟨ofBuiltin, ofRegistry⟩ := lineBreaks_expand Registry.builtin spanningCall
  have sparing : ∀ name entry, Registry.builtin.find? name = some entry → entry.Sparing :=
    fun _ entry known => ofBuiltin entry (Segment.mem_of_find?_ofList known)
  obtain ⟨segments, passages, -, -, -, -, -, -, same⟩ := ofRegistry sparing spanningCode expanded
  exact ⟨expanded, same⟩

end ThemeTemplates
