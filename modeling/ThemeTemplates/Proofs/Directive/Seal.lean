import ThemeTemplates.Proofs.Directive.Shape
import ThemeTemplates.Proofs.Page.Tagless
import ThemeTemplates.Proofs.Source.Pairing

/-!
# Emitted tags are sealed

Nothing in the arguments of a built-in directive ends a tag that is emitted for it, and nothing in
them begins one: the reader of the page cuts the emitted code into the tags that were written.
-/

namespace ThemeTemplates

open Piece

namespace Tag

def kind : Tag → Char
  | echo _ => '\x7b'
  | statement _ => '%'

def content : Tag → List Char
  | echo expression => expression
  | statement content => content

def body (tag : Tag) : List Char :=
  ' ' :: (tag.content ++ [' '])

/-- The first closer of a tag that the reader of a page accepts is the one it is printed with,
whatever follows. -/
def Sealed (tag : Tag) : Prop :=
  ∀ after, FirstCloser (EndsForPage tag.kind {}) tag.kind (tag.body ++ (closer tag.kind ++ after))
    tag.body after

theorem print_eq (tag : Tag) (after : List Char) :
    tag.print ++ after = '\x7b' :: tag.kind :: (tag.body ++ (closer tag.kind ++ after)) := by
  cases tag <;> simp [print, kind, body, content, closer, Segment.closingMark]

def piece (tag : Tag) (line : Nat) : Piece :=
  match tag with
  | echo _ => .echo tag.body line true
  | statement _ => .statement tag.body line true

def pieces (line : Nat) : List Tag → List Piece
  | [] => []
  | tag :: rest => tag.piece line :: pieces (line + lineBreaks tag.print) rest

theorem tagPiece_eq (tag : Tag) (line : Nat) :
    tagPiece tag.kind tag.body line true = [tag.piece line] := by
  cases tag <;> rfl

theorem lineBreaks_body (tag : Tag) : lineBreaks tag.body = lineBreaks tag.print := by
  cases tag <;> simp [body, content, print, lineBreaks]

theorem Sealed.piecesFrom_behind {tag : Tag} (h : tag.Sealed) {text : List Char}
    (plain : Tagless text) (last : text.getLast? ≠ some '\x7b') (line : Nat) (trimmed : Bool)
    (rest : List Char) : Piece.piecesFrom line trimmed (text ++ (tag.print ++ rest)) =
      textPiece trimmed false text line ++ tag.piece (line + lineBreaks text) ::
        Piece.piecesFrom (line + lineBreaks text + lineBreaks tag.print) false rest := by
  have ended := splitTag_eq_some_iff.mpr (h rest)
  have opened : splitText (tag.print ++ rest) =
      ([], some (tag.kind, tag.body ++ (closer tag.kind ++ rest))) := by
    rw [print_eq]
    cases tag <;> rfl
  have found := splitText_append plain last (tag.print ++ rest)
  rw [opened, List.append_nil] at found
  rw [Piece.piecesFrom]
  split
  · next found' => cases found.symm.trans found'
  · next found' =>
      cases found.symm.trans found'
      simp only
      split
      · next endless => cases ended.symm.trans endless
      · next ended' =>
          cases ended.symm.trans ended'
          rw [body, trimming_emitted, ← body, tagPiece_eq, lineBreaks_body, List.append_assoc]
          rfl

theorem Sealed.piecesFrom {tag : Tag} (h : tag.Sealed) (line : Nat) (trimmed : Bool)
    (rest : List Char) : Piece.piecesFrom line trimmed (tag.print ++ rest) =
      tag.piece line :: Piece.piecesFrom (line + lineBreaks tag.print) false rest := by
  have behind := h.piecesFrom_behind Tagless.nil (by simp) line trimmed rest
  simpa [textPiece, lineBreaks] using behind

theorem piecesFrom_printTags {tag : Tag} {tags : List Tag} (h : ∀ tag' ∈ tag :: tags, tag'.Sealed)
    (line : Nat) (trimmed : Bool) (rest : List Char) :
    Piece.piecesFrom line trimmed (printTags (tag :: tags) ++ rest) =
      pieces line (tag :: tags) ++
        Piece.piecesFrom (line + lineBreaks (printTags (tag :: tags))) false rest := by
  induction tags generalizing tag line trimmed with
  | nil =>
      have one : printTags [tag] = tag.print := List.append_nil _
      rw [one, (h tag List.mem_cons_self).piecesFrom]
      rfl
  | cons second tags ih =>
      have split : printTags (tag :: second :: tags) = tag.print ++ printTags (second :: tags) :=
        rfl
      have breaks : lineBreaks (printTags (tag :: second :: tags)) =
          lineBreaks tag.print + lineBreaks (printTags (second :: tags)) := by
        simp [split, lineBreaks]
      rw [breaks, split, List.append_assoc, (h tag List.mem_cons_self).piecesFrom,
        ih fun tag' hmem => h tag' (List.mem_cons_of_mem _ hmem), ← Nat.add_assoc]
      rfl

end Tag

/-! ### Texts that may stand in a tag -/

/-- A text that keeps its brackets and quotes to itself and has no mark of a closer outside them. -/
structure Sealable (kind : Char) (text : List Char) : Prop where
  contained : Contained text
  passes : Passes kind {} text

namespace Sealable

variable {kind : Char} {first second text : List Char}

theorem append (hfirst : Sealable kind first) (hsecond : Sealable kind second) :
    Sealable kind (first ++ second) := by
  refine ⟨hfirst.contained.append hsecond.contained, hfirst.passes.append ?_⟩
  rw [Nesting.after_of_run? hfirst.contained]
  exact hsecond.passes

theorem call (function : PageFunction) (noComment : kind ≠ '#')
    (mark : Segment.closingMark kind = '%' ∨ Segment.closingMark kind = '\x7d')
    (h : Contained text) : Sealable kind (function.call text) :=
  ⟨Emittable.contained_call function h, passes_call noComment mark function h⟩

theorem plain (neutral : text.all isNeutral = true)
    (noMark : text.all (· != Segment.closingMark kind) = true) : Sealable kind text :=
  ⟨contained_of_neutral (List.all_eq_true.mp neutral), Passes.of_all noMark⟩

theorem tag {tag : Tag} (h : Sealable tag.kind tag.content) : tag.Sealed := by
  intro after
  have noBlank : ' ' ≠ Segment.closingMark tag.kind := by
    cases tag with
    | echo => exact (by decide : ' ' ≠ '\x7d')
    | statement => exact (by decide : ' ' ≠ '%')
  have same : tag.body ++ (closer tag.kind ++ after) =
      ' ' :: (tag.content ++ ' ' :: Segment.closingMark tag.kind :: '\x7d' :: after) := by
    simp [Tag.body, closer]
  refine splitTag_eq_some_iff.mp ?_
  rw [same]
  exact splitTag_emitted after h.passes h.contained noBlank

end Sealable

theorem Passed.contained {args passed : List Char} (h : Passed args passed) : Contained passed := by
  induction h with
  | nothing | noFields => rfl
  | part inside => exact inside.contained.pageExpression
  | literal text => exact (Emittable.encodeLiteral text).contained
  | pair _ _ ihfirst ihsecond => exact contained_commaSeparated ihfirst ihsecond
  | answer _ _ ih => exact Emittable.contained_call _ ih
  | postTypeName =>
      exact Contained.append rfl (Emittable.contained_call _ Contained.nil)
  | currentRecord =>
      unfold Contained
      decide +kernel

theorem sealed_condition {keyword passed : List Char} (function : PageFunction) (negated : Bool)
    (word : Sealable '%' keyword) (h : Contained passed) :
    (Tag.statement (keyword ++ ' ' :: negatable negated (function.call passed))).Sealed := by
  have called : Sealable '%' (function.call passed) := .call function (by decide) (.inl rfl) h
  have blank : Sealable '%' [' '] := .plain rfl rfl
  have test : Sealable '%' (negatable negated (function.call passed)) := by
    cases negated with
    | false => exact called
    | true => exact Sealable.append (.plain rfl rfl) called
  exact Sealable.tag (word.append (blank.append test))

theorem sealed_setLoopVariable (function : PageFunction) {passed : List Char}
    (h : Contained passed) :
    (Builtin.setLoopVariable (function.call passed)).Sealed := by
  have called : Sealable '%' (function.call passed) := .call function (by decide) (.inl rfl) h
  exact Sealable.tag (Sealable.append ⟨contained_setPrefix, passes_setPrefix⟩ called)

theorem Emission.sealed {args : List Char} {role : Role} {tags : List Tag}
    (h : Emission args role tags) : ∀ tag ∈ tags, tag.Sealed := by
  cases h with
  | @echo function passed _ h =>
      refine List.forall_mem_singleton.mpr ?_
      have called : Sealable '\x7b' (function.call passed) :=
        .call function (by decide) (.inr rfl) h.contained
      exact Sealable.tag called
  | @condition _ function _ _ negated _ h =>
      refine List.forall_mem_singleton.mpr ?_
      exact sealed_condition function negated (.plain rfl rfl) h.contained
  | @alternative _ function _ _ negated _ h =>
      refine List.forall_mem_singleton.mpr ?_
      exact sealed_condition function negated (.plain rfl rfl) h.contained
  | endCondition =>
      refine List.forall_mem_singleton.mpr ?_
      exact Sealable.tag (.plain rfl rfl)
  | @openLoop _ kind iteration _ bound _ source =>
      obtain ⟨-, letters⟩ := isWord_boundName bound
      have items := contained_commaSeparated source.contained (contained_kindLiteral kind)
      have step := contained_commaSeparated (contained_word letters) (contained_kindLiteral kind)
      have opening : Sealable '%' ("for ".toList ++ iteration.boundName ++ " in ".toList) :=
        ⟨contained_for letters, passes_for letters⟩
      refine List.forall_mem_cons.mpr ⟨?_, List.forall_mem_singleton.mpr ?_⟩
      · exact Sealable.tag (opening.append (.call .loopPush (by decide) (.inl rfl) items))
      · exact sealed_setLoopVariable .loopNext step
  | @closeLoop _ kind =>
      refine List.forall_mem_cons.mpr ⟨Sealable.tag (.plain rfl rfl), ?_⟩
      refine List.forall_mem_singleton.mpr ?_
      exact sealed_setLoopVariable .loopPop (contained_kindLiteral kind)

theorem Emission.ne_nil {args : List Char} {role : Role} {tags : List Tag}
    (h : Emission args role tags) : tags ≠ [] := by
  cases h <;> exact List.cons_ne_nil _ _

/-! ### Directives of a source -/

namespace Segment

/-- The arguments of a directive of a source are contained, unless they are an iteration taken from
the text behind it. -/
theorem argument_cases {registry : Registry} {segments : List Segment} (scanned : Scanned segments)
    {name : String} {args : List Char} {line : Nat}
    (found : .directive name args line ∈ takeBareIterations registry segments) :
    Contained args ∨ (registry.find? name).any (·.bareIteration) = true ∧
      ∃ text remaining, splitBareIteration text = some (args, remaining) := by
  fun_induction takeBareIterations registry segments with
  | case1 name' line' text rest taken? taken remaining bare ih =>
      cases scanned with
      | directive _ _ _ scanned =>
          cases scanned with
          | verbatim _ scanned =>
              simp only [List.mem_cons, Segment.directive.injEq, reduceCtorEq, false_or] at found
              rcases found with ⟨rfl, rfl, rfl⟩ | found
              · obtain ⟨accepts, split⟩ := accepts_of_taken bare
                exact .inr ⟨accepts, text, remaining, split⟩
              · exact ih scanned found
  | case2 name' line' text rest taken? bare ih =>
      cases scanned with
      | directive _ _ contained scanned =>
          cases scanned with
          | verbatim _ scanned =>
              simp only [List.mem_cons, Segment.directive.injEq, reduceCtorEq, false_or] at found
              rcases found with ⟨rfl, rfl, rfl⟩ | found
              · exact .inl contained
              · exact ih scanned found
  | case3 segment rest _ ih =>
      rcases List.mem_cons.mp found with rfl | later
      · cases scanned with
        | directive _ _ contained _ => exact .inl contained
      · cases scanned with
        | verbatim _ scanned => exact ih scanned later
        | directive _ _ _ scanned => exact ih scanned later
  | case4 => cases found

/-- A built-in directive that accepts its arguments as they stand in a source emits tags of the
page, and the reader of the page ends each of them where it was ended, whatever the arguments hold
and whatever follows. -/
theorem emitted_tags_sealed {source : List Char} {segments : List Segment} {registry : Registry}
    {entry : Directive} {name : String} {args code : List Char} {line : Nat}
    (scanned : scan source = .ok segments)
    (found : .directive name args line ∈ takeBareIterations registry segments)
    (registered : registry.find? name = some entry) (builtin : entry ∈ Builtin.directives)
    (expanded : entry.expand args = .ok code) :
    ∃ tags, code = printTags tags ∧ Emission args entry.role tags ∧ (∀ tag ∈ tags, tag.Sealed) ∧
      ∀ line trimmed rest, piecesFrom line trimmed (code ++ rest) =
        Tag.pieces line tags ++ piecesFrom (line + lineBreaks code) false rest := by
  have contained : Contained args := by
    rcases argument_cases (scanned_of_scanFrom scanned)
      found with contained | ⟨accepts, text, _, split⟩
    · exact contained
    · rw [registered] at accepts
      exact contained_of_neutral (neutral_of_taken builtin accepts split expanded)
  obtain ⟨tags, rfl, emission⟩ := Builtin.shaped_of_mem builtin args code contained expanded
  refine ⟨tags, rfl, emission, emission.sealed, fun line trimmed rest => ?_⟩
  cases tags with
  | nil => exact absurd rfl emission.ne_nil
  | cons tag tags => exact Tag.piecesFrom_printTags emission.sealed line trimmed rest

def bracedAbility : List Char :=
  "('%\x7d', \x7b'a': ['\x7d\x7d', '\x7b#']\x7d)".toList

def bracedCheck : List Char :=
  "\x7b% if __can('%\x7d', \x7b'a': ['\x7d\x7d', '\x7b#']\x7d) %\x7d".toList

theorem bracedAbility_sealed :
    scan ("@can".toList ++ bracedAbility ++ "@endcan".toList) =
        .ok [.directive "can" bracedAbility 1, .directive "endcan" [] 1] ∧
      ∃ tags, bracedCheck = printTags tags ∧
        Emission bracedAbility (.opens "can") tags ∧ (∀ tag ∈ tags, tag.Sealed) ∧
        ∀ line trimmed rest, piecesFrom line trimmed
            (bracedCheck ++ rest) =
          Tag.pieces line tags ++ piecesFrom (line + lineBreaks bracedCheck) false rest := by
  have scanned : scan ("@can".toList ++ bracedAbility ++ "@endcan".toList) =
      .ok [.directive "can" bracedAbility 1, .directive "endcan" [] 1] := by
    decide +kernel
  have expanded : (Builtin.directive "can" (.opens "can")
      (Builtin.condition "can" .can false)).expand
      bracedAbility = .ok bracedCheck := by
    decide +kernel
  have builtin : Builtin.directive "can" (.opens "can") (Builtin.condition "can" .can false) ∈
      Builtin.directives := by
    simp [Builtin.directives]
  have registered : Registry.builtin.find? "can" =
      some (Builtin.directive "can" (.opens "can") (Builtin.condition "can" .can false)) := rfl
  exact ⟨scanned, emitted_tags_sealed scanned List.mem_cons_self registered builtin expanded⟩

end Segment

end ThemeTemplates
