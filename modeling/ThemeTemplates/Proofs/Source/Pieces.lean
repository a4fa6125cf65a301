import ThemeTemplates.Proofs.Source.Pairing

/-!
# Pieces of a source

A source that scans is made up of pieces, one for each segment, and nothing else. A piece of text is
the text, or has the second sign of an escape behind it; a directive is spelled out in full, and no
other sign outside page tags could begin one.
-/

namespace ThemeTemplates

/-- Text between directives, in front of what follows it: characters, page tags, and signs that
begin no directive, since a word stands in front of them or no letter behind. `afterWord` tells
whether the character in front of the text belongs to a word. -/
inductive Prose : Bool → List Char → List Char → Prop
  | nil (afterWord : Bool) (after : List Char) : Prose afterWord [] after
  | char (afterWord : Bool) {c : Char} {rest after : List Char} (noSign : c ≠ '@')
    (noTag : ∀ d, (rest ++ after).head? = some d → Segment.opensTag c d = false)
    (h : Prose (isWordChar c) rest after) : Prose afterWord (c :: rest) after
  | sign {afterWord : Bool} {rest after : List Char} (single : (rest ++ after).head? ≠ some '@')
    (text : afterWord = true ∨ (rest ++ after).head?.any isWordStart = false)
    (h : Prose false rest after) : Prose afterWord ('@' :: rest) after
  | tag (afterWord : Bool) {kind : Char} {inside rest after : List Char}
    (opens : Segment.opensTag '\x7b' kind = true)
    (ended : FirstCloser (EndsForSource kind .outside) kind
      (inside ++ (closer kind ++ (rest ++ after))) inside (rest ++ after))
    (h : Prose false rest after) :
    Prose afterWord ('\x7b' :: kind :: (inside ++ closer kind) ++ rest) after

/-- The pieces of a text, one for each segment, behind what stands in front of the text. -/
inductive Pieces : List Char → List (List Char) → List Segment → Prop
  | nil (before : List Char) : Pieces before [] []
  | text {before text : List Char} {pieces : List (List Char)} {segments : List Segment}
    (nonempty : text ≠ []) (prose : Prose (before.getLast?.any isWordChar) text pieces.flatten)
    (ends : ∀ following rest, segments ≠ .verbatim following :: rest)
    (h : Pieces (before ++ text) pieces segments) :
    Pieces before (text :: pieces) (.verbatim text :: segments)
  /-- Text up to two signs, of which the second is left out. -/
  | escape {before text : List Char} {pieces : List (List Char)} {segments : List Segment}
    (prose : Prose (before.getLast?.any isWordChar) text ('@' :: '@' :: pieces.flatten))
    (h : Pieces (before ++ (text ++ ['@', '@'])) pieces segments) :
    Pieces before ((text ++ ['@', '@']) :: pieces) (.verbatim (text ++ ['@']) :: segments)
  | directive {before name blanks args : List Char} {pieces : List (List Char)}
    {segments : List Segment} (noWord : before.getLast?.any isWordChar = false)
    (starts : name.head?.any isWordStart = true) (letters : ∀ c ∈ name, isWordChar c = true)
    (maximal : (blanks ++ (args ++ pieces.flatten)).head?.any isWordChar = false)
    (gap : ∀ c ∈ blanks, isSpaceOrTab c = true)
    (list : (args = [] ∧ blanks = [] ∧ (pieces.flatten.dropWhile isSpaceOrTab).head? ≠ some '(') ∨
      ∃ inner, Counted args inner)
    (h : Pieces (before ++ '@' :: (name ++ (blanks ++ args))) pieces segments) :
    Pieces before (('@' :: (name ++ (blanks ++ args))) :: pieces)
      (.directive (String.ofList name) args (1 + lineBreaks before) :: segments)

namespace Pieces

variable {before chunk : List Char} {pieces : List (List Char)} {segments : List Segment}

/-- Text in front of some pieces goes with the first of them if that is text. -/
theorem prepend (h : Pieces (before ++ chunk) pieces segments) (nonempty : chunk ≠ [])
    (joins : ∀ rest after, rest ++ after = pieces.flatten →
      Prose ((before ++ chunk).getLast?.any isWordChar) rest after →
        Prose (before.getLast?.any isWordChar) (chunk ++ rest) after) :
    ∃ pieces', pieces'.flatten = chunk ++ pieces.flatten ∧
      Pieces before pieces' (Segment.prepend chunk segments) := by
  have alone : Prose (before.getLast?.any isWordChar) chunk pieces.flatten := by
    simpa using joins [] pieces.flatten rfl (.nil _ _)
  cases h with
  | nil => exact ⟨[chunk], by simp, .text nonempty alone (fun _ _ same => by cases same) (.nil _)⟩
  | @text _ text pieces _ _ prose ends h =>
      refine ⟨(chunk ++ text) :: pieces, by simp, ?_⟩
      rw [List.append_assoc] at h
      exact .text (by simp [nonempty]) (joins _ _ rfl prose) ends h
  | @escape _ text pieces _ prose h =>
      refine ⟨(chunk ++ text ++ ['@', '@']) :: pieces, by simp, ?_⟩
      rw [List.append_assoc before, ← List.append_assoc chunk] at h
      rw [Segment.prepend, ← List.append_assoc]
      exact .escape (joins _ _ (by simp) prose) h
  | directive noWord starts letters maximal gap list h =>
      exact ⟨_, by simp, .text nonempty alone (fun _ _ same => by cases same)
        (.directive noWord starts letters maximal gap list h)⟩

end Pieces

theorem not_wordChar_of_closing {c : Char} (h : isClosing c = true) : isWordChar c = false := by
  simp only [isClosing, Bool.or_eq_true, beq_iff_eq] at h
  rcases h with (rfl | rfl) | rfl <;> decide

theorem getLast?_any_concat (p : Char → Bool) (text : List Char) (c : Char) :
    (text ++ [c]).getLast?.any p = p c := by
  rw [List.getLast?_concat]
  rfl

theorem head?_dropWhile_any (p : Char → Bool) (text : List Char) :
    (text.dropWhile p).head?.any p = false := by
  have := List.head?_dropWhile_not p text
  cases head : (text.dropWhile p).head? with
  | none => rfl
  | some c => simpa [head] using this

theorem head?_any_takeWhile {p q : Char → Bool} {text : List Char}
    (imp : ∀ c, p c = true → q c = true) (h : text.head?.any p = true) :
      (text.takeWhile q).head?.any p = true := by
  cases text with
  | nil => cases h
  | cons c rest =>
      have starts : p c = true := h
      rw [List.takeWhile_cons_of_pos (imp c starts)]
      exact h

theorem Stretch.tag_noWord (before : List Char) (kind : Char) (inside : List Char) :
    (before ++ '\x7b' :: kind :: (inside ++ closer kind)).getLast?.any isWordChar = false := by
  have split : before ++ '\x7b' :: kind :: (inside ++ closer kind) =
      (before ++ '\x7b' :: kind :: (inside ++ [Segment.closingMark kind])) ++ ['\x7d'] := by
    simp [closer]
  rw [split, getLast?_any_concat]
  rfl

theorem call_noWord (before name blanks inner : List Char) {close : Char}
    (closing : isClosing close = true) :
    (before ++ '@' :: (name ++ (blanks ++ '(' :: (inner ++ [close])))).getLast?.any isWordChar =
      false := by
  have split : before ++ '@' :: (name ++ (blanks ++ '(' :: (inner ++ [close]))) =
      (before ++ '@' :: (name ++ (blanks ++ '(' :: inner))) ++ [close] := by
    simp
  rw [split, getLast?_any_concat, not_wordChar_of_closing closing]

theorem bare_endsInWord (before : List Char) {name : List Char}
    (starts : name.head?.any isWordStart = true) (letters : ∀ c ∈ name, isWordChar c = true) :
    (before ++ '@' :: (name ++ ([] ++ []))).getLast?.any isWordChar = true := by
  cases name using List.reverseRecOn with
  | nil => cases starts
  | append_singleton front c =>
      rw [List.append_nil, List.append_nil, ← List.cons_append, ← List.append_assoc,
        getLast?_any_concat]
      exact letters c (by simp)

theorem lineBreaks_directive {name blanks : List Char} (letters : ∀ c ∈ name, isWordChar c = true)
    (gap : ∀ c ∈ blanks, isSpaceOrTab c = true) (args : List Char) :
    lineBreaks ('@' :: (name ++ (blanks ++ args))) = lineBreaks args := by
  have noName : lineBreaks name = 0 := lineBreaks_eq_zero fun hmem => by cases letters _ hmem
  have noBlanks : lineBreaks blanks = 0 := lineBreaks_eq_zero fun hmem => by cases gap _ hmem
  rw [← List.singleton_append, lineBreaks_append, lineBreaks_append, lineBreaks_append,
    noName, noBlanks]
  simp [lineBreaks]

/-- A source that is laid out in stretches is made up of pieces that spell its segments. -/
theorem pieces_of_layout {afterWord : Bool} {text : List Char} {stretches : List Stretch}
    (h : Layout (EndsForSource · .outside) afterWord text stretches) (before : List Char)
    (word : before.getLast?.any isWordChar = afterWord) : ∃ pieces : List (List Char),
      pieces.flatten = text ∧
      Pieces before pieces (Stretch.segments (1 + lineBreaks before) stretches) := by
  induction h generalizing before with
  | nil => exact ⟨[], rfl, .nil before⟩
  | escape afterWord _ ih =>
      obtain ⟨pieces, rfl, found⟩ := ih (before ++ ['@', '@']) (by simp; decide)
      refine ⟨['@', '@'] :: pieces, rfl, .escape (.nil _ _) ?_⟩
      rwa [lineBreaks_append] at found
  | sign single text _ ih =>
      obtain ⟨pieces, rfl, found⟩ := ih (before ++ ['@']) (getLast?_any_concat ..)
      rw [lineBreaks_append, ← Nat.add_assoc] at found
      refine found.prepend (List.cons_ne_nil _ _) fun rest after cut prose => ?_
      rw [getLast?_any_concat] at prose
      rw [← cut] at single text
      exact .sign single (by simpa [word] using text) prose
  | char afterWord noSign noTag _ ih =>
      obtain ⟨pieces, rfl, found⟩ := ih (before ++ [_]) (getLast?_any_concat ..)
      rw [lineBreaks_append, ← Nat.add_assoc] at found
      refine found.prepend (List.cons_ne_nil _ _) fun rest after cut prose => ?_
      rw [getLast?_any_concat] at prose
      exact .char _ noSign (cut ▸ noTag) prose
  | @tag afterWord kind body inside after _ opens ended _ ih =>
      have last := Stretch.tag_noWord before kind inside
      obtain ⟨pieces, rfl, found⟩ := ih _ last
      rw [lineBreaks_append, ← Nat.add_assoc] at found
      rw [ended.whole]
      obtain ⟨pieces', whole, found'⟩ :=
        found.prepend (List.cons_ne_nil _ _) fun rest after cut prose => by
        rw [last] at prose
        refine .tag _ opens ?_ prose
        rw [cut, ← ended.whole]
        exact ended
      exact ⟨pieces', by rw [whole]; simp, found'⟩
  | @call rest inside inner following close stretches starts opens closes _ ih =>
      obtain ⟨-, closing, contained⟩ :=
        splitAtClose_spec closes (show Nesting.depth { depth := 1 } = 0 + 1 from rfl)
      have behind := Layout.call_eq opens closes
      generalize gapped : (rest.dropWhile isWordChar).takeWhile isSpaceOrTab = blanks at behind ⊢
      have gap : ∀ c ∈ blanks, isSpaceOrTab c = true := fun c hmem =>
        List.mem_takeWhile_imp (gapped ▸ hmem)
      have letters : ∀ c ∈ rest.takeWhile isWordChar, isWordChar c = true :=
        fun c hmem => List.mem_takeWhile_imp hmem
      obtain ⟨pieces, rfl, found⟩ := ih _ (call_noWord before _ blanks inner closing)
      rw [lineBreaks_append, lineBreaks_directive letters gap, ← Nat.add_assoc] at found
      refine ⟨_, ?_, .directive word ?_ letters ?_ gap ?_ found⟩
      · conv =>
          rhs
          rw [← List.takeWhile_append_dropWhile (p := isWordChar) (l := rest), behind]
        simp
      · exact head?_any_takeWhile (fun c => isWordStart_isWordChar) starts
      · rw [← behind]
        exact head?_dropWhile_any isWordChar rest
      · exact .inr ⟨inner, close, rfl, closing, contained⟩
  | @bare rest stretches starts noList _ ih =>
      have letters : ∀ c ∈ rest.takeWhile isWordChar, isWordChar c = true :=
        fun c hmem => List.mem_takeWhile_imp hmem
      have starts' := head?_any_takeWhile (fun c => isWordStart_isWordChar) starts
      obtain ⟨pieces, same, found⟩ := ih _ (bare_endsInWord before starts' letters)
      rw [lineBreaks_append,
        lineBreaks_directive letters (fun _ hmem => absurd hmem List.not_mem_nil),
        ← Nat.add_assoc] at found
      refine ⟨_, ?_, .directive word starts' letters ?_
        (fun _ hmem => absurd hmem List.not_mem_nil) (.inl ⟨rfl, rfl, ?_⟩) found⟩
      · conv =>
          rhs
          rw [← List.takeWhile_append_dropWhile (p := isWordChar) (l := rest), ← same]
        simp
      · rw [same]
        exact head?_dropWhile_any isWordChar rest
      · rw [same]
        exact noList

/-! ### Sources made up of pieces -/

theorem Segment.prepend_prepend (first second : List Char) (segments : List Segment) :
    Segment.prepend first (Segment.prepend second segments) =
      Segment.prepend (first ++ second) segments := by
  cases segments with
  | nil => rfl
  | cons segment rest => cases segment <;> simp [Segment.prepend]

theorem Segment.prepend_of_ends {text : List Char} {segments : List Segment}
    (ends : ∀ following rest, segments ≠ .verbatim following :: rest) :
    Segment.prepend text segments = .verbatim text :: segments := by
  cases segments with
  | nil => rfl
  | cons segment rest =>
      cases segment with
      | verbatim following => exact absurd rfl (ends following rest)
      | directive => rfl

/-- Some stretches in front of others are text that goes with the first segment of the others. -/
def Stretch.Spells (text : List Char) (stretches : List Stretch) : Prop :=
  ∀ line rest, Stretch.segments line (stretches ++ rest) = if text =
    [] then Stretch.segments line rest
    else Segment.prepend text (Stretch.segments (line + lineBreaks text) rest)

theorem Stretch.Spells.cons {text : List Char} {stretches : List Stretch}
    (h : Spells text stretches) {chunk : List Char} {stretch : Stretch} (nonempty : chunk ≠ [])
    (first : ∀ line rest, Stretch.segments line (stretch :: rest) =
      Segment.prepend chunk (Stretch.segments (line + lineBreaks chunk) rest)) :
    Spells (chunk ++ text) (stretch :: stretches) := by
  intro line rest
  have nonempty' : chunk ++ text ≠ [] := by simp [nonempty]
  rw [List.cons_append, first, h, if_neg nonempty']
  by_cases empty : text = []
  · rw [if_pos empty, empty, List.append_nil]
  · rw [if_neg empty, Segment.prepend_prepend, lineBreaks_append, Nat.add_assoc]

theorem Prose.layout {afterWord : Bool} {text after : List Char} (h : Prose afterWord text after)
    {before : List Char} (word : before.getLast?.any isWordChar = afterWord) :
    ∃ stretches, Stretch.Spells text stretches ∧
      ∀ rest, Layout (EndsForSource · .outside) ((before ++ text).getLast?.any isWordChar)
        after rest →
        Layout (EndsForSource · .outside) afterWord (text ++ after) (stretches ++ rest) := by
  induction h generalizing before with
  | nil =>
      refine ⟨[], fun _ _ => rfl, fun rest layout => ?_⟩
      rw [List.append_nil, word] at layout
      exact layout
  | @char afterWord c _ _ noSign noTag _ ih =>
      obtain ⟨stretches, spells, layout⟩ := @ih (before ++ [c]) (getLast?_any_concat ..)
      refine ⟨.char c :: stretches, spells.cons (List.cons_ne_nil c []) fun _ _ =>
        rfl, fun rest behind => ?_⟩
      rw [List.append_assoc] at layout
      exact .char afterWord noSign noTag (layout rest behind)
  | sign single text _ ih =>
      obtain ⟨stretches, spells, layout⟩ := @ih (before ++ ['@']) (getLast?_any_concat ..)
      refine ⟨.char '@' :: stretches, spells.cons (List.cons_ne_nil _ []) fun _ _ => rfl,
        fun rest behind => ?_⟩
      rw [List.append_assoc] at layout
      exact .sign single (by simpa using text) (layout rest behind)
  | @tag afterWord kind inside _ _ opens ended _ ih =>
      obtain ⟨stretches, spells, layout⟩ :=
        @ih (before ++ '\x7b' :: kind :: (inside ++ closer kind)) (Stretch.tag_noWord ..)
      refine ⟨.tag kind inside :: stretches, spells.cons (List.cons_ne_nil _ _) fun _ _ => rfl,
        fun rest behind => ?_⟩
      rw [List.append_assoc] at layout
      have tagged := Layout.tag afterWord opens ended (layout rest behind)
      simpa using tagged

theorem takeWhile_dropWhile_append {p : Char → Bool} {first second : List Char}
    (all : ∀ c ∈ first, p c = true) (ends : second.head?.any p = false) :
    (first ++ second).takeWhile p = first ∧ (first ++ second).dropWhile p = second := by
  cases second with
  | nil => simpa using all
  | cons c rest =>
      have stops : p c = false := ends
      rw [List.takeWhile_append_of_pos all, List.dropWhile_append_of_pos all]
      simp [stops]

theorem layout_of_pieces {before : List Char} {pieces : List (List Char)} {segments : List Segment}
    (h : Pieces before pieces segments) : ∃ stretches,
      Layout (EndsForSource · .outside) (before.getLast?.any isWordChar) pieces.flatten stretches ∧
        segments = Stretch.segments (1 + lineBreaks before) stretches := by
  induction h with
  | nil before => exact ⟨[], .nil _, rfl⟩
  | @text before text pieces segments nonempty prose ends _ ih =>
      obtain ⟨rest, behind, rfl⟩ := ih
      obtain ⟨stretches, spells, layout⟩ := prose.layout rfl
      refine ⟨stretches ++ rest, layout rest behind, ?_⟩
      rw [spells, if_neg nonempty, Nat.add_assoc, ← lineBreaks_append, Segment.prepend_of_ends ends]
  | @escape before text pieces segments prose _ ih =>
      obtain ⟨rest, behind, rfl⟩ := ih
      obtain ⟨stretches, spells, layout⟩ := prose.layout rfl
      have last : (before ++ (text ++ ['@', '@'])).getLast?.any isWordChar = false := by
        rw [← List.append_assoc, ← List.singleton_append, ← List.append_assoc]
        exact getLast?_any_concat ..
      rw [last] at behind
      refine ⟨stretches ++ .escape :: rest, by simpa using layout _ (.escape _ behind), ?_⟩
      rw [spells, lineBreaks_append, lineBreaks_append, ← Nat.add_assoc]
      by_cases empty : text = []
      · rw [if_pos empty, empty]
        rfl
      · rw [if_neg empty]
        rfl
  | @directive before name blanks args pieces segments noWord starts letters maximal gap
      list _ ih =>
      obtain ⟨rest, behind, rfl⟩ := ih
      rw [lineBreaks_append, lineBreaks_directive letters gap, ← Nat.add_assoc]
      obtain ⟨named, cut⟩ := takeWhile_dropWhile_append letters maximal
      refine ⟨.directive name blanks args :: rest, ?_, rfl⟩
      have starts' : (name ++ (blanks ++ (args ++ pieces.flatten))).head?.any isWordStart =
          true := by
        cases name with
        | nil => cases starts
        | cons c name => exact starts
      have same : (('@' :: (name ++ (blanks ++ args))) :: pieces).flatten =
          '@' :: (name ++ (blanks ++ (args ++ pieces.flatten))) := by simp
      rw [noWord, same]
      rcases list with ⟨rfl, rfl, noList⟩ | ⟨inner, close, rfl, closing, contained⟩
      · rw [bare_endsInWord before starts letters] at behind
        have laid := Layout.bare starts' (by rw [cut]; exact noList) (by rw [cut]; exact behind)
        rwa [named] at laid
      · rw [call_noWord before name blanks inner closing] at behind
        have stops : ('(' :: (inner ++ [close]) ++ pieces.flatten).head?.any isSpaceOrTab = false :=
          rfl
        obtain ⟨gapped, list⟩ := takeWhile_dropWhile_append gap stops
        have closes : splitAtClose { depth := 1 } (inner ++ close :: pieces.flatten) =
            some (inner, close, pieces.flatten) :=
          splitAtClose_of_run? contained closing pieces.flatten
        have laid := Layout.call starts' (by rw [cut, list]; simp) closes behind
        rwa [named, cut, gapped] at laid

/-- A source that scans is made up of pieces that spell its segments, one for each. -/
theorem pieces_of_scan {source : List Char} {segments : List Segment}
    (scanned : Segment.scan source = .ok segments) :
    ∃ pieces : List (List Char), pieces.flatten = source ∧ Pieces [] pieces segments := by
  obtain ⟨stretches, layout, rfl⟩ := Segment.layout_of_scanFrom scanned
  exact pieces_of_layout layout [] rfl

/-- A source scans to some segments if and only if it is made up of pieces that spell them, one for
each. -/
theorem scan_iff_pieces {source : List Char} {segments : List Segment} :
    Segment.scan source = .ok segments ↔
      ∃ pieces : List (List Char), pieces.flatten = source ∧ Pieces [] pieces segments := by
  refine ⟨pieces_of_scan, ?_⟩
  rintro ⟨pieces, rfl, found⟩
  obtain ⟨stretches, layout, rfl⟩ := layout_of_pieces found
  exact Segment.scanFrom_of_layout layout 1

end ThemeTemplates
