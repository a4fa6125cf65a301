import ThemeTemplates.Proofs.Source.BareIteration
import ThemeTemplates.Proofs.Source.Layout
import ThemeTemplates.Proofs.Source.PlainText

/-!
# The nesting of directives is the nesting of the page

A source that expands becomes a page whose loops and conditionals nest as its directives do.
-/

namespace ThemeTemplates

namespace Segment

/-- What a scan finds: text goes on with text behind a doubled mark only, and arguments close the
brackets they open. -/
inductive Scanned : List Segment → Prop
  | nil : Scanned []
  | verbatim {text : List Char} {rest : List Segment}
    (marked : ∀ following rest', rest = .verbatim following :: rest' → text.getLast? = some '@')
    (h : Scanned rest) : Scanned (.verbatim text :: rest)
  | directive (name : String) {args : List Char} (line : Nat) {rest : List Segment}
    (contained : Contained args) (h : Scanned rest) : Scanned (.directive name args line :: rest)

variable {segments : List Segment}

theorem Scanned.prepend (text : List Char) (h : Scanned segments) :
    Scanned (prepend text segments) := by
  cases h with
  | nil => exact .verbatim (fun _ _ same => by cases same) .nil
  | verbatim marked h =>
      refine .verbatim (fun following rest' same => ?_) h
      exact PlainText.getLast?_append_of_some _ (marked following rest' same)
  | directive name line contained h =>
      exact .verbatim (fun _ _ same => by cases same) (.directive name line contained h)

theorem contained_arguments {inside inner following : List Char} {close : Char}
    (closed : splitAtClose { depth := 1 } inside = some (inner, close, following)) :
    Contained ('(' :: (inner ++ [close])) := by
  obtain ⟨-, closing, ran⟩ :=
    splitAtClose_spec closed (show Nesting.depth { depth := 1 } = 0 + 1 from rfl)
  have inner' : Contained inner := ran
  obtain ⟨quote, opening⟩ := not_quote_of_closing closing
  unfold Contained
  show Nesting.run? { depth := 1 } (inner ++ [close]) = _
  rw [Nesting.run?_append, inner'.run?_at 1]
  simp [Nesting.run?, Nesting.step?, quote, opening, closing]

theorem scanned_of_layout {ends : Char → List Char → Prop} {afterWord : Bool} {text : List Char}
    {stretches : List Stretch} (h : Layout ends afterWord text stretches) (line : Nat) :
    Scanned (Stretch.segments line stretches) := by
  induction h generalizing line with
  | nil => exact .nil
  | escape _ _ ih => exact .verbatim (fun _ _ _ => rfl) (ih line)
  | sign _ _ _ ih => exact (ih _).prepend _
  | call _ _ closes _ ih => exact .directive _ _ (contained_arguments closes) (ih _)
  | bare _ _ _ ih => exact .directive _ _ Contained.nil (ih _)
  | tag _ _ _ _ ih => exact (ih _).prepend _
  | char _ _ _ _ ih => exact (ih _).prepend _

theorem scanned_of_scanFrom {line : Nat} {afterWord : Bool} {text : List Char}
    (h : scanFrom line afterWord text = .ok segments) : Scanned segments := by
  obtain ⟨stretches, layout, rfl⟩ := layout_of_scanFrom h
  exact scanned_of_layout layout line

/-! ### Steps of the expansion -/

variable {registry : Registry} {blocks blocks' : List OpenBlock} {code : List Char}

theorem expandFrom_nil (h : expandFrom registry blocks [] = .ok code) :
    blocks = [] ∧ code = [] := by
  cases blocks with
  | nil =>
      cases h
      exact ⟨rfl, rfl⟩
  | cons => cases h

theorem expandFrom_verbatim_eq (registry : Registry) (blocks : List OpenBlock) (text : List Char)
    (rest : List Segment) : expandFrom registry blocks (.verbatim text :: rest) =
      (expandFrom registry blocks rest).bind fun later => .ok (text ++ later) := by
  cases blocks <;> rfl

theorem expandFrom_directive_eq (registry : Registry) (blocks : List OpenBlock) (name : String)
    (args : List Char) (line : Nat) (rest : List Segment) :
    expandFrom registry blocks (.directive name args line :: rest) =
      match expandDirective registry blocks name args line with
      | .error error => .error { line, error }
      | .ok (blocks, code) =>
        (expandFrom registry blocks rest).bind fun later =>
          .ok (code ++ padding args code ++ later) := by
  cases blocks <;> rfl

theorem expandFrom_verbatim {text : List Char}
    (h : expandFrom registry blocks (.verbatim text :: segments) = .ok code) :
    ∃ later, expandFrom registry blocks segments = .ok later ∧ code = text ++ later := by
  rw [expandFrom_verbatim_eq] at h
  obtain ⟨later, found, last⟩ := Except.bind_eq_ok_iff.mp h
  cases last
  exact ⟨later, found, rfl⟩

theorem expandFrom_directive {name : String} {args : List Char} {line : Nat}
    (h : expandFrom registry blocks (.directive name args line :: segments) = .ok code) :
    ∃ blocks' emitted later, expandDirective registry blocks name args line =
      .ok (blocks', emitted) ∧
      expandFrom registry blocks' segments = .ok later ∧
      code = emitted ++ padding args emitted ++ later := by
  rw [expandFrom_directive_eq] at h
  cases step : expandDirective registry blocks name args line with
  | error error =>
      rw [step] at h
      cases h
  | ok result =>
      rw [step] at h
      obtain ⟨later, found, last⟩ := Except.bind_eq_ok_iff.mp h
      cases last
      exact ⟨result.1, result.2, later, rfl, found, rfl⟩

theorem expandDirective_ok {name : String} {args emitted : List Char} {line : Nat}
    (h : expandDirective registry blocks name args line = .ok (blocks', emitted)) :
    ∃ entry, registry.find? name = some entry ∧
      OpenBlock.step blocks name entry.role line = .ok blocks' ∧
      entry.expand args = .ok emitted := by
  unfold expandDirective at h
  cases found : registry.find? name with
  | none =>
      rw [found] at h
      cases h
  | some entry =>
      rw [found] at h
      obtain ⟨next, stepped, rest⟩ := Except.bind_eq_ok_iff.mp h
      obtain ⟨code, expanded, last⟩ := Except.bind_eq_ok_iff.mp rest
      cases last
      exact ⟨entry, rfl, stepped, expanded⟩

theorem mem_of_find?_ofList {directives : List Directive} {name : String} {entry : Directive}
    (h : (Registry.ofList directives).find? name = some entry) : entry ∈ directives := by
  have general : ∀ (directives : List Directive) (registry : Registry),
      (directives.foldl Registry.register registry).find? name = some entry →
        entry ∈ directives ∨ registry.find? name = some entry := by
    intro directives
    induction directives with
    | nil => exact fun _ found => .inr found
    | cons first rest ih =>
        intro registry found
        rcases ih _ found with hmem | earlier
        · exact .inl (List.mem_cons_of_mem _ hmem)
        · rw [Registry.find?_register] at earlier
          split at earlier
          · cases earlier
            exact .inl List.mem_cons_self
          · exact .inr earlier
  rcases general directives Registry.empty h with hmem | found
  · exact hmem
  · cases found

theorem splitTag_lineBreaks (n : Nat) (later : List Char) :
    Piece.splitTag '#' {} (List.replicate n '\n' ++ '#' :: '\x7d' :: later) =
      some (List.replicate n '\n', later) := by
  have breaks : Passes '#' {} (List.replicate n '\n') :=
    Passes.of_noMark fun c hmem => by
      rw [List.eq_of_mem_replicate hmem]
      decide
  rw [breaks.splitTag_append]
  simp [Piece.splitTag, closingMark]

theorem nests_padding {opened : List OpenTag} (args emitted : List Char) {later : List Char}
    (nests : Nests OfLoops opened later) :
      Nests OfLoops opened (padding args emitted ++ later) := by
  unfold padding
  cases missing : lineBreaks args - lineBreaks emitted with
  | zero => exact nests
  | succ n =>
      have comment := Nests.comment (splitTag_lineBreaks (n + 1) later) nests
      simpa using comment

/-- The code of a directive in front of a page that nests in the blocks open behind it. -/
theorem emits_directive {name : String} {args emitted : List Char} {line : Nat}
    (argument : Argument args)
    (h : expandDirective Registry.builtin blocks name args line = .ok (blocks', emitted)) :
    Emits (openTags blocks) (openTags blocks') emitted := by
  obtain ⟨entry, found, stepped, expanded⟩ := expandDirective_ok h
  obtain ⟨tags, rfl, emission⟩ :=
    Builtin.shaped_of_mem (mem_of_find?_ofList found) args emitted argument.contained expanded
  exact emission.emits argument (Role.leads_of_step stepped)

theorem nests_directive {name : String} {args emitted later : List Char} {line : Nat}
    (argument : Argument args)
    (h : expandDirective Registry.builtin blocks name args line = .ok (blocks', emitted))
    (nests : Nests OfLoops (openTags blocks') later) :
    Nests OfLoops (openTags blocks) (emitted ++ padding args emitted ++ later) ∧
      Nests OfLoops (openTags blocks) ('\x7b' :: (emitted ++ padding args emitted ++ later)) := by
  have emits := emits_directive argument h
  rw [List.append_assoc]
  exact ⟨emits.nests _ (nests_padding args emitted nests), emits.behindBrace _⟩

/-! ### Iterations without parentheses -/

theorem eq_of_bareIteration {entry : Directive} (hmem : entry ∈ Builtin.directives)
    (accepts : entry.bareIteration = true) :
    entry = Builtin.iterationDirective "loop" Builtin.loop ∨
      entry = Builtin.iterationDirective "simplemenu" Builtin.simpleMenu := by
  have accepting : Builtin.directives.filter (·.bareIteration) =
      [Builtin.iterationDirective "loop" Builtin.loop,
        Builtin.iterationDirective "simplemenu" Builtin.simpleMenu] := rfl
  have found := List.mem_filter.mpr ⟨hmem, accepts⟩
  rw [accepting] at found
  simpa using found

theorem parse_refused {args source binding : List Char}
    (cut : Iteration.splitAs {} none (unwrap args) = some (source, binding))
    (refused : isVariable (trim binding) = false) (directive : String) (iteration : Iteration) :
    Iteration.parse directive args ≠ .ok iteration := by
  intro parsed
  rw [Iteration.parse, cut] at parsed
  obtain ⟨bound, -, same⟩ := Iteration.ofParts_ok parsed
  rw [same, refused] at bound
  cases bound

theorem parseLoop_refused {args source binding : List Char} (nonempty : unwrap args ≠ [])
    (cut : Iteration.splitAs {} none (unwrap args) = some (source, binding))
    (refused : isVariable (trim binding) = false) (iteration : Iteration) :
    Iteration.parseLoop args ≠ .ok iteration := by
  intro parsed
  unfold Iteration.parseLoop at parsed
  extract_lets text at parsed
  rw [if_neg (by simpa [text] using nonempty), cut] at parsed
  obtain ⟨bound, -, same⟩ := Iteration.ofParts_ok parsed
  rw [same, refused] at bound
  cases bound

theorem refuses_of_bare {entry : Directive} (hmem : entry ∈ Builtin.directives)
    (accepts : entry.bareIteration = true) {taken : List Char} (bare : Iteration.Bare taken)
    {x : Char} (inBinding : x ∈ bare.binding) (opens : isNeutral x = false)
    (inPiece : ∀ c ∈ bare.binding, isAsciiBlank c = false) (emitted : List Char) :
    entry.expand taken ≠ .ok emitted := by
  obtain ⟨nonempty, source, binding, cut, refused⟩ :=
    Iteration.refused_of_bare bare inBinding opens inPiece
  intro expanded
  rcases eq_of_bareIteration hmem accepts with rfl | rfl
  · cases parsed : Iteration.parseLoop taken with
    | error error =>
        simp [Builtin.iterationDirective, Builtin.directive, Builtin.loop, parsed, bind,
          Except.bind, Except.map] at expanded
    | ok iteration => exact parseLoop_refused nonempty cut refused iteration parsed
  · cases parsed : Iteration.parse "simplemenu" taken with
    | error error =>
        simp [Builtin.iterationDirective, Builtin.directive, Builtin.simpleMenu, parsed, bind,
          Except.bind, Except.map] at expanded
    | ok iteration => exact parse_refused cut refused "simplemenu" iteration parsed

/-- An iteration without parentheses that a directive accepts has no quotes or brackets. -/
theorem neutral_of_taken {entry : Directive} (hmem : entry ∈ Builtin.directives)
    (accepts : entry.bareIteration = true) {text taken remaining emitted : List Char}
    (split : splitBareIteration text = some (taken, remaining))
    (expanded : entry.expand taken = .ok emitted) : ∀ c ∈ taken, isNeutral c = true := by
  obtain ⟨-, ⟨bare⟩⟩ := Iteration.bare_of_split split
  have neutral : ∀ c ∈ bare.binding, isNeutral c = true := by
    rcases bare.binds with neutral | inPiece
    · exact neutral
    · intro c hmem'
      by_contra opens
      exact refuses_of_bare hmem accepts bare hmem' (Bool.eq_false_iff.mpr opens) inPiece emitted
        expanded
  intro c hmem
  rw [bare.whole] at hmem
  simp only [List.mem_append, List.mem_cons] at hmem
  rcases hmem with hmem | hmem | rfl | rfl | hmem | hmem
  · exact isNeutral_of_isSpaceOrTab (bare.blankGap c hmem)
  · exact bare.neutral c hmem
  · rfl
  · rfl
  · exact isNeutral_of_isSpaceOrTab (bare.blankBehind.2 c hmem)
  · exact neutral c hmem

/-- What a directive takes from the text behind it is an argument like any other, if the directive
accepts it at all. -/
theorem taken_spec {name : String} {text taken remaining emitted : List Char} {line : Nat}
    (accepts : (Registry.builtin.find? name).any (·.bareIteration) = true)
    (split : splitBareIteration text = some (taken, remaining))
    (h : expandDirective Registry.builtin blocks name taken line = .ok (blocks', emitted)) :
    Contained taken ∧ text = taken ++ remaining ∧ '\x7b' ∉ taken := by
  obtain ⟨entry, found, -, expanded⟩ := expandDirective_ok h
  rw [found] at accepts
  have neutral := neutral_of_taken (mem_of_find?_ofList found) accepts split expanded
  refine ⟨contained_of_neutral neutral, (Iteration.bare_of_split split).1, fun hmem => ?_⟩
  cases neutral _ hmem

theorem plainText_of_append {first second : List Char} (noBrace : '\x7b' ∉ first)
    (h : PlainText (first ++ second)) : PlainText second := by
  induction first with
  | nil => exact h
  | cons c first ih =>
      rw [List.mem_cons, not_or] at noBrace
      refine ih noBrace.2 ?_
      rw [List.cons_append] at h
      generalize first ++ second = rest at h
      cases h with
      | char _ h => exact h
      | comment | echo => exact absurd rfl noBrace.1

/-! ### Whole sources -/

theorem accepts_of_taken {name : String} {text taken remaining : List Char}
    (h : (if (registry.find? name).any (·.bareIteration) then splitBareIteration text else none) =
      some (taken, remaining)) : (registry.find? name).any (·.bareIteration) = true ∧
        splitBareIteration text = some (taken, remaining) := by
  by_cases accepts : (registry.find? name).any (·.bareIteration) = true
  · rw [if_pos accepts] at h
    exact ⟨accepts, h⟩
  · rw [if_neg accepts] at h
    cases h

theorem Scanned.noText {text : List Char} (scanned : Scanned (.verbatim text :: segments))
    (last : text.getLast? = some '\x7b') (following : List Char) (rest : List Segment) :
    segments ≠ .verbatim following :: rest := by
  intro same
  cases scanned with
  | verbatim marked _ => cases last.symm.trans (marked following rest same)

/-- The code of the segments of a plain template nests inside the blocks open in front of them, also
behind a brace if it begins with a directive. -/
theorem nests_of_expandFrom (scanned : Scanned segments)
    (plain : ∀ text, Segment.verbatim text ∈ segments → PlainText text)
    (names : ∀ name args line, .directive name args line ∈
      takeBareIterations Registry.builtin segments →
      showsNames .outside false (pageExpression args) = true)
    (expanded : expandFrom Registry.builtin blocks (takeBareIterations Registry.builtin segments) =
      .ok code) :
    Nests OfLoops (openTags blocks) code ∧ ((∀ text rest, segments ≠ .verbatim text :: rest) →
      Nests OfLoops (openTags blocks) ('\x7b' :: code)) := by
  fun_induction takeBareIterations Registry.builtin segments generalizing blocks code with
  | case1 =>
      rename_i name line text rest taken? taken remaining bare ih
      obtain ⟨blocks', emitted, behind, directed, expandedText, rfl⟩ :=
        expandFrom_directive expanded
      obtain ⟨later, expandedRest, rfl⟩ := expandFrom_verbatim expandedText
      cases scanned with
      | directive _ _ _ scannedText =>
          have scannedRest : Scanned rest := by
            cases scannedText with
            | verbatim _ h => exact h
          have nestsRest := ih scannedRest
            (fun text hmem => plain text (List.mem_cons_of_mem _ (List.mem_cons_of_mem _ hmem)))
            (fun name args line hmem =>
              names name args line (List.mem_cons_of_mem _ (List.mem_cons_of_mem _ hmem)))
                expandedRest
          obtain ⟨accepts, split⟩ := accepts_of_taken bare
          obtain ⟨contained, whole, noBrace⟩ := taken_spec accepts split directed
          have plainText := plain text (by simp)
          rw [whole] at plainText
          have nestsText := (plainText_of_append noBrace plainText).nests (fun last => nestsRest.2
            (scannedText.noText (by rw [whole]; exact PlainText.getLast?_append_of_some _ last)))
            nestsRest.1
          have nests := nests_directive ⟨contained, names _ _ _ List.mem_cons_self⟩
            directed nestsText
          exact ⟨nests.1, fun _ => nests.2⟩
  | case2 =>
      rename_i name line text rest taken? refused ih
      obtain ⟨blocks', emitted, behind, directed, expandedText, rfl⟩ :=
        expandFrom_directive expanded
      obtain ⟨later, expandedRest, rfl⟩ := expandFrom_verbatim expandedText
      cases scanned with
      | directive _ _ contained scannedText =>
          have scannedRest : Scanned rest := by
            cases scannedText with
            | verbatim _ h => exact h
          have nestsRest := ih scannedRest
            (fun text hmem => plain text (List.mem_cons_of_mem _ (List.mem_cons_of_mem _ hmem)))
            (fun name args line hmem =>
              names name args line (List.mem_cons_of_mem _ (List.mem_cons_of_mem _ hmem)))
                expandedRest
          have nestsText := (plain text (by simp)).nests
            (fun last => nestsRest.2 (scannedText.noText last)) nestsRest.1
          have nests := nests_directive ⟨contained, names _ _ _ List.mem_cons_self⟩
            directed nestsText
          exact ⟨nests.1, fun _ => nests.2⟩
  | case3 segment rest _ ih =>
      have plainRest := fun text hmem => plain text (List.mem_cons_of_mem _ hmem)
      have namesRest := fun name args line hmem =>
        names name args line (List.mem_cons_of_mem _ hmem)
      cases scanned with
      | @verbatim text _ marked scannedRest =>
          obtain ⟨later, expandedRest, rfl⟩ := expandFrom_verbatim expanded
          have nestsRest := ih scannedRest plainRest namesRest expandedRest
          refine ⟨(plain text List.mem_cons_self).nests (fun last => nestsRest.2 ?_) nestsRest.1,
            fun noText => absurd rfl (noText text rest)⟩
          exact Scanned.noText (.verbatim marked scannedRest) last
      | @directive name args line _ contained scannedRest =>
          obtain ⟨blocks', emitted, later, directed, expandedRest, rfl⟩ :=
            expandFrom_directive expanded
          have nestsRest := ih scannedRest plainRest namesRest expandedRest
          have nests := nests_directive ⟨contained, names _ _ _ List.mem_cons_self⟩
            directed nestsRest.1
          exact ⟨nests.1, fun _ => nests.2⟩
  | case4 =>
      obtain ⟨rfl, rfl⟩ := expandFrom_nil expanded
      have ends : Nests OfLoops (openTags []) [] := Nests.nil .done
      refine ⟨ends, fun _ => Nests.char (fun d first => ?_) ends⟩
      cases first

end Segment

/-- A template made of text, comments, plain echoes and directives. No name in it begins with two
underscores once sigils are dropped. -/
structure PlainTemplate (source : List Char) : Prop where
  text : ∀ segments text, Segment.scan source = .ok segments → .verbatim text ∈ segments →
    PlainText text
  names : ∀ segments name args line, Segment.scan source = .ok segments →
    .directive name args line ∈ Segment.takeBareIterations Registry.builtin segments →
    showsNames .outside false (pageExpression args) = true

/-- Whether no name in the arguments of a segment begins with two underscores. -/
def Segment.showsNames : Segment → Bool
  | .directive _ args _ => ThemeTemplates.showsNames .outside false (pageExpression args)
  | .verbatim _ => true

theorem PlainTemplate.of_scan {source : List Char} {segments : List Segment}
    (scanned : Segment.scan source = .ok segments)
    (text : ∀ text, .verbatim text ∈ segments → PlainText text)
    (names : (Segment.takeBareIterations Registry.builtin segments).all Segment.showsNames = true) :
    PlainTemplate source := by
  refine ⟨fun others _ found => ?_, fun others name args line found hmem => ?_⟩
  · cases scanned.symm.trans found
    exact text _
  · cases scanned.symm.trans found
    exact List.all_eq_true.mp names _ hmem

theorem nests_of_expand {source code : List Char} (plain : PlainTemplate source)
    (expanded : expand Registry.builtin source = .ok code) : Nests OfLoops [] code := by
  obtain ⟨segments, scanned, expanded⟩ := Except.bind_eq_ok_iff.mp expanded
  have nests : Nests OfLoops (openTags []) code ∧ _ :=
    Segment.nests_of_expandFrom (Segment.scanned_of_scanFrom scanned)
      (fun text => plain.text segments text scanned)
      (fun name args line => plain.names segments name args line scanned) expanded
  exact nests.1

theorem not_ofLoops_blade_loop : ¬ OfLoops "blade_loop" :=
  not_ofLoops_of_unknown (by decide +kernel)

theorem codes_of_expand {source code : List Char} (plain : PlainTemplate source)
    (expanded : expand Registry.builtin source = .ok code) {template : String} {page : Page}
    (parsed : Page.parse template code = .ok page) :
    ∃ outline, Outline.Codes OfLoops outline page.body := by
  refine Spells.codes_of_parse ?_ parsed
  rw [Piece.map_token_ofPage]
  exact (nests_of_expand plain expanded).spells 1 false

end ThemeTemplates
