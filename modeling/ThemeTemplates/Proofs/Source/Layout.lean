import ThemeTemplates.Proofs.Failure.Inversion
import ThemeTemplates.Proofs.Page.Extent
import ThemeTemplates.Proofs.Text.Balance
import ThemeTemplates.Source.Segment

/-!
# The layout of a source

A source is laid out in stretches: characters of text, page tags, and directives. What counts as the
end of a tag is left open; a source that scans is laid out by the ends that its own reader accepts,
and each tag lies whole in the text around it. The reader of the page lays the source out alike if
and only if no tag was ended inside brackets.
-/

namespace ThemeTemplates

inductive Stretch where
  | char (c : Char)
  /-- Two signs that stand for one in the text. -/
  | escape
  | tag (kind : Char) (inside : List Char)
  /-- A directive, with the blanks in front of its argument list. -/
  | directive (name : List Char) (blanks args : List Char)

namespace Stretch

def cover : Stretch → List Char
  | char c => [c]
  | escape => ['@', '@']
  | tag kind inside => '\x7b' :: kind :: (inside ++ closer kind)
  | directive name blanks args => '@' :: (name ++ (blanks ++ args))

def segments (line : Nat) : List Stretch → List Segment
  | [] => []
  | char c :: rest => Segment.prepend [c] (segments (line + lineBreaks [c]) rest)
  | escape :: rest => .verbatim ['@'] :: segments line rest
  | tag kind inside :: rest =>
    let chars := (tag kind inside).cover
    Segment.prepend chars (segments (line + lineBreaks chars) rest)
  | directive name _ args :: rest =>
    .directive (String.ofList name) args line :: segments (line + lineBreaks args) rest

end Stretch

/-- How a text is laid out, given where tags of a kind may end. `afterWord` tells whether the
character in front of it belongs to a word. -/
inductive Layout (ends : Char → List Char → Prop) : Bool → List Char → List Stretch → Prop
  | nil (afterWord : Bool) : Layout ends afterWord [] []
  | escape (afterWord : Bool) {rest : List Char} {stretches : List Stretch}
    (h : Layout ends false rest stretches) :
    Layout ends afterWord ('@' :: '@' :: rest) (.escape :: stretches)
  | sign {afterWord : Bool} {rest : List Char} {stretches : List Stretch}
    (single : rest.head? ≠ some '@') (text : (afterWord || !rest.head?.any isWordStart) = true)
    (h : Layout ends false rest stretches) :
    Layout ends afterWord ('@' :: rest) (.char '@' :: stretches)
  | call {rest inside inner following : List Char} {close : Char} {stretches : List Stretch}
    (starts : rest.head?.any isWordStart = true)
    (opens : (rest.dropWhile isWordChar).dropWhile isSpaceOrTab = '(' :: inside)
    (closes : splitAtClose { depth := 1 } inside = some (inner, close, following))
    (h : Layout ends false following stretches) :
    Layout ends false ('@' :: rest) (.directive (rest.takeWhile isWordChar)
      ((rest.dropWhile isWordChar).takeWhile isSpaceOrTab) ('(' :: (inner ++ [close])) :: stretches)
  | bare {rest : List Char} {stretches : List Stretch}
    (starts : rest.head?.any isWordStart = true)
    (noList : ((rest.dropWhile isWordChar).dropWhile isSpaceOrTab).head? ≠ some '(')
    (h : Layout ends true (rest.dropWhile isWordChar) stretches) :
    Layout ends false ('@' :: rest) (.directive (rest.takeWhile isWordChar) [] [] :: stretches)
  | tag (afterWord : Bool) {kind : Char} {body inside after : List Char} {stretches : List Stretch}
    (opens : Segment.opensTag '\x7b' kind = true)
    (ended : FirstCloser (ends kind) kind body inside after)
    (h : Layout ends false after stretches) :
    Layout ends afterWord ('\x7b' :: kind :: body) (.tag kind inside :: stretches)
  | char (afterWord : Bool) {c : Char} {rest : List Char} {stretches : List Stretch}
    (noSign : c ≠ '@') (noTag : ∀ d, rest.head? = some d → Segment.opensTag c d = false)
    (h : Layout ends (isWordChar c) rest stretches) :
    Layout ends afterWord (c :: rest) (.char c :: stretches)

namespace Layout

variable {ends : Char → List Char → Prop} {afterWord : Bool} {text : List Char}
  {stretches : List Stretch}

theorem call_eq {rest inside inner following : List Char} {close : Char}
    (opens : (rest.dropWhile isWordChar).dropWhile isSpaceOrTab = '(' :: inside)
    (closes : splitAtClose { depth := 1 } inside = some (inner, close, following)) :
    rest.dropWhile isWordChar = (rest.dropWhile isWordChar).takeWhile isSpaceOrTab ++
      ('(' :: (inner ++ [close]) ++ following) := by
  obtain ⟨list, -⟩ := splitAtClose_spec closes (show Nesting.depth { depth := 1 } = 0 + 1 from rfl)
  have cut : '(' :: (inner ++ [close]) ++ following = '(' :: inside := by simp [list]
  rw [cut, ← opens, List.takeWhile_append_dropWhile]

theorem flatMap_cover (h : Layout ends afterWord text stretches) :
    stretches.flatMap Stretch.cover = text := by
  induction h with
  | nil => rfl
  | escape _ _ ih => simp [Stretch.cover, ih]
  | sign _ _ _ ih => simp [Stretch.cover, ih]
  | @call rest _ _ _ _ _ _ opens closes _ ih =>
      conv =>
        rhs
        rw [← List.takeWhile_append_dropWhile (p := isWordChar) (l := rest), call_eq opens closes]
      simp [Stretch.cover, ih]
  | bare _ _ _ ih => simp [Stretch.cover, ih]
  | tag _ _ ended _ ih => simp [Stretch.cover, ih, ended.whole]
  | char _ _ _ _ ih => simp [Stretch.cover, ih]

end Layout

namespace Segment

variable {line : Nat} {afterWord : Bool} {text : List Char} {segments : List Segment}

theorem directive_here {rest : List Char}
    (h : ¬(afterWord || !rest.head?.any isWordStart) = true) :
    afterWord = false ∧ rest.head?.any isWordStart = true := by
  simpa using h

theorem brace_of_opensTag {c d : Char} (h : opensTag c d = true) : c = '\x7b' := by
  simp only [opensTag, Bool.and_eq_true, beq_iff_eq] at h
  exact h.1

theorem layout_of_scanFrom (h : scanFrom line afterWord text = .ok segments) :
    ∃ stretches, Layout (EndsForSource · .outside) afterWord text stretches ∧
      segments = Stretch.segments line stretches := by
  fun_induction scanFrom line afterWord text generalizing segments with
  | case1 line afterWord =>
      cases h
      exact ⟨[], .nil afterWord, rfl⟩
  | case2 line afterWord rest ih =>
      obtain ⟨later, found, rfl⟩ := Except.bind_pure_eq_ok_iff.mp h
      obtain ⟨stretches, layout, rfl⟩ := ih found
      exact ⟨_, .escape afterWord layout, rfl⟩
  | case3 line afterWord rest single text ih =>
      obtain ⟨later, found, rfl⟩ := Except.bind_pure_eq_ok_iff.mp h
      obtain ⟨stretches, layout, rfl⟩ := ih found
      have noSecond : rest.head? ≠ some '@' := by
        rw [Ne, List.head?_eq_some_iff]
        rintro ⟨tail, same⟩
        exact single tail same
      exact ⟨_, .sign noSecond text layout, rfl⟩
  | case4 =>
      rename_i notText _ _ _ opens _ _ _ closes _ ih
      obtain ⟨later, found, rfl⟩ := Except.bind_pure_eq_ok_iff.mp h
      obtain ⟨stretches, layout, rfl⟩ := ih found
      obtain ⟨rfl, starts⟩ := directive_here notText
      exact ⟨_, .call starts opens closes layout, rfl⟩
  | case5 => cases h
  | case6 =>
      rename_i notText _ _ noList ih
      obtain ⟨later, found, rfl⟩ := Except.bind_pure_eq_ok_iff.mp h
      obtain ⟨stretches, layout, rfl⟩ := ih found
      obtain ⟨rfl, starts⟩ := directive_here notText
      refine ⟨_, .bare starts ?_ layout, rfl⟩
      rw [Ne, List.head?_eq_some_iff]
      rintro ⟨inside, same⟩
      exact noList inside same
  | case7 =>
      rename_i opens _ _ closes _ _ ih
      obtain ⟨later, found, rfl⟩ := Except.bind_pure_eq_ok_iff.mp h
      obtain ⟨stretches, layout, rfl⟩ := ih found
      obtain ⟨inside, rfl, ended⟩ := splitTagEnd_eq_some_iff.mp closes
      obtain rfl := brace_of_opensTag opens
      exact ⟨_, .tag _ opens ended layout, rfl⟩
  | case8 => cases h
  | case9 =>
      rename_i noSign _ _ noTag _ ih
      obtain ⟨later, found, rfl⟩ := Except.bind_pure_eq_ok_iff.mp h
      obtain ⟨stretches, layout, rfl⟩ := ih found
      refine ⟨_, .char _ noSign (fun d next => ?_) layout, rfl⟩
      cases next
      exact Bool.eq_false_iff.mpr noTag
  | case10 =>
      rename_i noSign _
      cases h
      exact ⟨_, .char _ noSign (fun d next => by cases next) (.nil _), rfl⟩

/-- A text that is laid out by the ends that the reader of a source accepts scans. -/
theorem scanFrom_of_layout {stretches : List Stretch}
    (h : Layout (EndsForSource · .outside) afterWord text stretches) (line : Nat) :
    scanFrom line afterWord text = .ok (Stretch.segments line stretches) := by
  induction h generalizing line with
  | nil => rw [scanFrom]; rfl
  | escape _ _ ih =>
      rw [scanFrom, ih]
      rfl
  | sign single text _ ih =>
      rw [scanFrom]
      · rw [if_pos text, ih]
        rfl
      · rintro rest rfl
        exact single rfl
  | @call rest inside inner following close _ starts opens closes _ ih =>
      have here : (false || !rest.head?.any isWordStart) = false := by simp [starts]
      rw [scanFrom]
      · rw [here, if_neg Bool.false_ne_true]
        simp only
        split
        · next inside' opens' =>
            cases opens.symm.trans opens'
            split
            · next closes' =>
                cases closes.symm.trans closes'
                rw [ih]
                rfl
            · next unclosed => cases closes.symm.trans unclosed
        · next noList => exact absurd opens (noList inside)
      · rintro rest' rfl
        cases starts
  | @bare rest _ starts noList _ ih =>
      have here : (false || !rest.head?.any isWordStart) = false := by simp [starts]
      rw [scanFrom]
      · rw [here, if_neg Bool.false_ne_true]
        simp only
        split
        · next opens => exact absurd (by rw [opens]; rfl) noList
        · rw [ih]
          rfl
      · rintro rest' rfl
        cases starts
  | tag afterWord opens ended _ ih =>
      have closes := splitTagEnd_eq_some_iff.mpr ⟨_, rfl, ended⟩
      rw [scanFrom]
      · simp only [opens, if_true]
        split
        · next closes' =>
            cases closes.symm.trans closes'
            rw [ih]
            rfl
        · next unclosed => cases closes.symm.trans unclosed
      · simp
      · simp
  | @char afterWord c rest _ noSign noTag _ ih =>
      cases rest with
      | nil =>
          have none := ih (line + lineBreaks [c])
          rw [scanFrom, Except.ok.injEq] at none
          rw [scanFrom]
          · rw [Stretch.segments, ← none]
            rfl
          · simp [noSign]
          · simp [noSign]
      | cons d rest =>
          rw [scanFrom]
          · simp only [noTag d rfl, Bool.false_eq_true, if_false]
            rw [ih]
            rfl
          · simp [noSign]
          · simp [noSign]

end Segment

/-! ### Tags of the page -/

theorem Segment.prepend_eq (text : List Char) (segments : List Segment) :
    ∃ following rest, Segment.prepend text segments = .verbatim (text ++ following) :: rest ∧
      ∀ segment ∈ segments, segment ∈ rest ∨ segment = .verbatim following := by
  cases segments with
  | nil => exact ⟨[], [], by simp [prepend], fun _ hmem => by cases hmem⟩
  | cons first rest =>
      cases first with
      | verbatim following =>
          refine ⟨following, rest, rfl, fun segment hmem => ?_⟩
          rcases List.mem_cons.mp hmem with rfl | hmem
          · exact .inr rfl
          · exact .inl hmem
      | directive name args line =>
          refine ⟨[], _, by simp [prepend], fun segment hmem => .inl hmem⟩

theorem Segment.verbatim_infix_prepend {part chars : List Char} {segments : List Segment}
    (h : ∃ text, .verbatim text ∈ segments ∧ part <:+: text) :
    ∃ text, .verbatim text ∈ Segment.prepend chars segments ∧ part <:+: text := by
  obtain ⟨text, hmem, inText⟩ := h
  obtain ⟨following, rest, same, kept⟩ := Segment.prepend_eq chars segments
  rw [same]
  rcases kept _ hmem with hmem | first
  · exact ⟨text, List.mem_cons_of_mem _ hmem, inText⟩
  · cases first
    exact ⟨_, List.mem_cons_self, inText.trans (List.suffix_append chars text).isInfix⟩

theorem Stretch.tag_in_verbatim {stretches : List Stretch} {kind : Char} {inside : List Char}
    (h : .tag kind inside ∈ stretches) (line : Nat) :
    ∃ text, .verbatim text ∈ Stretch.segments line stretches ∧
      (Stretch.tag kind inside).cover <:+: text := by
  induction stretches generalizing line with
  | nil => cases h
  | cons first rest ih =>
      rcases List.mem_cons.mp h with rfl | later
      · obtain ⟨following, rest', same, -⟩ := Segment.prepend_eq (Stretch.tag kind inside).cover
          (segments (line + lineBreaks (Stretch.tag kind inside).cover) rest)
        refine ⟨_, by rw [segments, same]; exact List.mem_cons_self, ?_⟩
        exact (List.prefix_append _ following).isInfix
      · cases first with
        | char c => exact Segment.verbatim_infix_prepend (ih later _)
        | tag kind' inside' => exact Segment.verbatim_infix_prepend (ih later _)
        | escape | directive =>
            obtain ⟨text, hmem, inText⟩ := ih later _
            exact ⟨text, List.mem_cons_of_mem _ hmem, inText⟩

/-- Where both readers end a tag, it is outside literals, and for the page outside brackets too. -/
theorem endsForPage_iff {kind : Char} {inside : List Char} :
    EndsForPage kind {} inside ↔ EndsForSource kind .outside inside ∧
      (kind = '#' ∨ (Nesting.after {} inside).depth = 0) := by
  have quotation := Nesting.quotation_after {} inside
  by_cases comment : kind = '#'
  · simp [EndsForPage, EndsForSource, comment]
  · simp only [EndsForPage, EndsForSource, comment, if_false, false_or, Nesting.atTop,
      Bool.and_eq_true, beq_iff_eq]
    rw [quotation]

def Stretch.Level (stretches : List Stretch) : Prop :=
  ∀ kind inside, .tag kind inside ∈ stretches → kind = '#' ∨ (Nesting.after {} inside).depth = 0

theorem Stretch.Level.tail {first : Stretch} {rest : List Stretch} (h : Level (first :: rest)) :
    Level rest :=
  fun kind inside hmem => h kind inside (List.mem_cons_of_mem _ hmem)

/-- The reader of the page lays a source out as its own reader does if and only if no tag was ended
inside brackets. -/
theorem Layout.forPage_iff {afterWord : Bool} {text : List Char} {stretches : List Stretch}
    (h : Layout (EndsForSource · .outside) afterWord text stretches) :
    Layout (EndsForPage · {}) afterWord text stretches ↔ Stretch.Level stretches := by
  constructor
  · intro page kind inside hmem
    clear h
    induction page with
    | nil => cases hmem
    | tag _ _ ended _ ih =>
        rcases List.mem_cons.mp hmem with same | later
        · cases same
          exact (endsForPage_iff.mp ended.accepted).2
        · exact ih later
    | escape _ _ ih | sign _ _ _ ih | call _ _ _ _ ih | bare _ _ _ ih | char _ _ _ _ ih =>
        exact ih ((List.mem_cons.mp hmem).resolve_left Stretch.noConfusion)
  · intro level
    induction h with
    | nil => exact .nil _
    | escape afterWord _ ih => exact .escape afterWord (ih level.tail)
    | sign single text _ ih => exact .sign single text (ih level.tail)
    | call starts opens closes _ ih => exact .call starts opens closes (ih level.tail)
    | bare starts noList _ ih => exact .bare starts noList (ih level.tail)
    | char afterWord noSign noTag _ ih => exact .char afterWord noSign noTag (ih level.tail)
    | tag afterWord opens ended _ ih =>
        have accepted := endsForPage_iff.mpr ⟨ended.accepted, level _ _ List.mem_cons_self⟩
        have earlier : FirstCloser _ _ _ _ _ :=
          ended.of_accepts (fun before there => (endsForPage_iff.mp there).1) accepted
        exact .tag afterWord opens earlier (ih level.tail)

/-- A source that scans is made up of stretches of which the segments are those found. Each of its
tags, ended at the first closer outside literals, lies whole in a text segment. That is where the
reader of the page ends the tags, and no directive is found inside one, if and only if no tag was
ended inside brackets. -/
theorem scan_keeps_tags_iff {source : List Char} {segments : List Segment}
    (scanned : Segment.scan source = .ok segments) :
    ∃ stretches, Layout (EndsForSource · .outside) false source stretches ∧
      stretches.flatMap Stretch.cover = source ∧ segments = Stretch.segments 1 stretches ∧
      (∀ kind inside, .tag kind inside ∈ stretches →
        ∃ text, .verbatim text ∈ segments ∧ (Stretch.tag kind inside).cover <:+: text) ∧
      (Layout (EndsForPage · {}) false source stretches ↔ Stretch.Level stretches) := by
  obtain ⟨stretches, layout, rfl⟩ := Segment.layout_of_scanFrom scanned
  exact ⟨stretches, layout, layout.flatMap_cover, rfl,
    fun kind inside hmem => Stretch.tag_in_verbatim hmem 1, layout.forPage_iff⟩

def nestedRecord : List Char :=
  "\x7b\x7b \x7b'a': \x7b'b': 1\x7d\x7d ~ '@x' \x7d\x7d".toList

def cutRecord : List Segment :=
  [.verbatim "\x7b\x7b \x7b'a': \x7b'b': 1\x7d\x7d ~ '".toList, .directive "x" [] 1,
    .verbatim "' \x7d\x7d".toList]

theorem scan_nestedRecord : Segment.scan nestedRecord = .ok cutRecord := by
  decide +kernel

theorem nestedRecord_keeps_tags_iff : Segment.scan nestedRecord = .ok cutRecord ∧
    ∃ stretches, Layout (EndsForSource · .outside) false nestedRecord stretches ∧
      stretches.flatMap Stretch.cover = nestedRecord ∧ cutRecord = Stretch.segments 1 stretches ∧
      (∀ kind inside, .tag kind inside ∈ stretches →
        ∃ text, .verbatim text ∈ cutRecord ∧ (Stretch.tag kind inside).cover <:+: text) ∧
      (Layout (EndsForPage · {}) false nestedRecord stretches ↔ Stretch.Level stretches) :=
  ⟨scan_nestedRecord, scan_keeps_tags_iff scan_nestedRecord⟩

/-- For the reader of the page it is one tag, so a directive is found inside a tag. -/
theorem nestedRecord_loses_tag : ¬ ∃ stretches,
    Layout (EndsForPage · {}) false nestedRecord stretches ∧
      Segment.scan nestedRecord = .ok (Stretch.segments 1 stretches) := by
  rintro ⟨stretches, layout, scanned⟩
  have ended := Piece.splitTag_eq_some_iff.mp (show Piece.splitTag '\x7b' {} (nestedRecord.drop 2) =
    some (" \x7b'a': \x7b'b': 1\x7d\x7d ~ '@x' ".toList, []) by decide +kernel)
  have starts : nestedRecord = '\x7b' :: '\x7b' :: nestedRecord.drop 2 := by decide +kernel
  rw [starts] at layout
  cases layout with
  | char _ _ noTag _ => exact absurd (noTag '\x7b' rfl) (by decide)
  | tag _ _ ended' rest =>
      obtain ⟨rfl, rfl⟩ := ended.unique ended'
      cases rest
      rw [scan_nestedRecord] at scanned
      exact absurd scanned (by decide +kernel)

end ThemeTemplates
