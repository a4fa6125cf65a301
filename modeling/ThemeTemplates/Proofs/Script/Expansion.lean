import ThemeTemplates.Proofs.Script.Basic

/-!
# Expansion of scripts

In the place of its directives expansion puts the code of a script.
-/

namespace ThemeTemplates

/-! ### Arguments -/

namespace Script

variable {source : Operand} {name : String}

def loopInner (source : Operand) (name : String) : List Char :=
  (source.print ++ [' ']) ++ 'a' :: 's' :: ' ' :: '$' :: name.toList

theorem loopArgs_eq (source : Operand) (name : String) :
    loopArgs source name = '(' :: (loopInner source name ++ [')']) := by
  have keyword : " as $".toList = [' ', 'a', 's', ' ', '$'] := rfl
  simp [loopArgs, loopInner, keyword]

theorem splitAs_loopInner (h : source.isOrdinary = true) (named : isWord name = true) :
    Iteration.splitAs {} none (loopInner source name) =
      some (source.print ++ [' '], ' ' :: '$' :: name.toList) := by
  have contained : Contained (source.print ++ [' ']) := (Operand.contained_print h).append rfl
  have settled : Settled true (source.print ++ [' ']) := by
    rw [settled_iff_atTop, Nesting.after_of_run? contained]
    rfl
  exact Iteration.splitAs_eq_some_iff.mpr
    (Iteration.lastKeyword_variable (isWord_iff.mp named).2 settled (by simp; decide))

theorem visible_name (named : isWord name = true) (text : List Char) :
    (text ++ '$' :: name.toList).getLast?.any (fun c => !isBlank c) = true := by
  obtain ⟨start, letters⟩ := isWord_iff.mp named
  cases same : name.toList with
  | nil =>
      rw [same] at start
      cases start
  | cons c rest =>
      have shown : ∀ d ∈ c :: rest, isBlank d = false := fun d hmem =>
        visible_of_word (letters d (same ▸ hmem))
      rw [List.getLast?_append_cons, List.getLast?_cons_cons,
        List.getLast?_eq_some_getLast (List.cons_ne_nil c rest)]
      simpa using shown _ (List.getLast_mem _)

theorem visible_loopInner (h : source.isOrdinary = true) (named : isWord name = true) :
    Visible (loopInner source name) ∧ (loopInner source name).head? ≠ some '(' := by
  have start := Operand.head?_print h
  have last := visible_name named (source.print ++ " as ".toList)
  have keyword : " as ".toList = [' ', 'a', 's', ' '] := rfl
  cases same : source.print with
  | nil =>
      rw [same] at start
      cases start
  | cons c rest =>
      rw [same] at start last
      simp only [List.head?_cons, Option.any_some, Bool.and_eq_true, bne_iff_ne] at start
      refine ⟨⟨?_, ?_⟩, ?_⟩
      · simpa [loopInner, same] using start.1
      · simpa [loopInner, same, keyword] using last
      · simpa [loopInner, same] using start.2

theorem contained_loopInner (h : source.isOrdinary = true) (named : isWord name = true) :
    Contained (loopInner source name) := by
  refine ((Operand.contained_print h).append (show Contained [' '] from rfl)).append
    (contained_of_neutral fun c hmem => ?_)
  simp only [List.mem_cons] at hmem
  rcases hmem with rfl | rfl | rfl | rfl | hmem
  iterate 4 rfl
  exact isNeutral_of_isWordChar ((isWord_iff.mp named).2 c hmem)

theorem unwrap_loopArgs (h : source.isOrdinary = true) (named : isWord name = true) :
    unwrap (loopArgs source name) = loopInner source name := by
  obtain ⟨visible, noBracket⟩ := visible_loopInner h named
  have counted : Counted (loopArgs source name) (loopInner source name) :=
    ⟨')', loopArgs_eq source name, rfl, contained_loopInner h named⟩
  have once : unwrapOnce (trim (loopArgs source name)) = some (loopInner source name) := by
    rw [counted.trim_eq]
    exact unwrapOnce_eq_some_iff.mpr counted
  rw [unwrap_of_some once]
  exact Iteration.unwrap_of_trim visible.trim_eq noBracket

theorem visible_print (h : source.isOrdinary = true) : Visible source.print := by
  refine ⟨?_, ?_⟩
  · have start := Operand.head?_print h
    cases same : source.print with
    | nil =>
        rw [same] at start
        cases start
    | cons c rest =>
        rw [same] at start
        simp only [List.head?_cons, Option.any_some, Bool.and_eq_true] at start
        simpa using start.1
  · cases source with
    | path sigil path =>
        have shown : ∀ c ∈ (Operand.path sigil path).print, isBlank c = false := by
          have inPath : ∀ c ∈ path.print, isBlank c = false := by
            intro c hmem
            rcases Path.mem_print h hmem with word | rfl
            · exact visible_of_word word
            · decide
          cases sigil with
          | true => exact List.forall_mem_cons.mpr ⟨by decide, inPath⟩
          | false => exact inPath
        cases last : (Operand.path sigil path).print.getLast? with
        | none =>
            have start := Operand.head?_print h
            rw [List.getLast?_eq_none_iff.mp last] at start
            cases start
        | some c => simpa using shown c (List.mem_of_getLast? last)
    | text s =>
        rw [Operand.print, ← List.cons_append, List.getLast?_concat]
        rfl

theorem ofParts_loop (h : source.isOrdinary = true) (named : isWord name = true)
    (directive : String) (raw : List Char) :
    Iteration.ofParts directive raw (source.print ++ [' ']) (' ' :: '$' :: name.toList) =
      .ok { source := source.print, binding := '$' :: name.toList } := by
  obtain ⟨start, letters⟩ := isWord_iff.mp named
  have trimmedSource : trim (source.print ++ [' ']) = source.print := by
    rw [trim_append_blanks (List.forall_mem_singleton.mpr rfl), (visible_print h).trim_eq]
  have shown : Visible ('$' :: name.toList) := ⟨rfl, visible_name named []⟩
  have trimmedBinding : trim (' ' :: '$' :: name.toList) = '$' :: name.toList := by
    rw [← List.singleton_append, trim_blanks_append (List.forall_mem_singleton.mpr rfl),
      shown.trim_eq]
  have nonempty : source.print.isEmpty = false := by
    have visible := (visible_print h).1
    cases same : source.print with
    | nil =>
        rw [same] at visible
        cases visible
    | cons => rfl
  have variable' : isVariable ('$' :: name.toList) = true := by
    cases same : name.toList with
    | nil =>
        rw [same] at start
        cases start
    | cons c rest =>
        rw [same] at start letters
        have all : rest.all isWordChar = true :=
          List.all_eq_true.mpr fun d hmem => letters d (List.mem_cons_of_mem _ hmem)
        simpa [isVariable, all] using start
  simp [Iteration.ofParts, trimmedSource, trimmedBinding, nonempty, variable']

/-! ### Expanders -/

theorem boundName_loop (named : isWord name = true) (source : List Char) :
    Iteration.boundName { source, binding := '$' :: name.toList } = name.toList := by
  obtain ⟨start, -⟩ := isWord_iff.mp named
  unfold Iteration.boundName
  cases same : name.toList with
  | nil => rfl
  | cons c rest =>
      rw [same] at start
      have other : c ≠ '$' := by
        rintro rfl
        cases start
      simp [other]

theorem parse_loopArgs (h : source.isOrdinary = true) (named : isWord name = true)
    (directive : String) : Iteration.parse directive (loopArgs source name) =
      .ok { source := source.print, binding := '$' :: name.toList } := by
  rw [Iteration.parse, unwrap_loopArgs h named, splitAs_loopInner h named]
  exact ofParts_loop h named directive _

theorem parseLoop_loopArgs (h : source.isOrdinary = true) (named : isWord name = true) :
    Iteration.parseLoop (loopArgs source name) =
      .ok { source := source.print, binding := '$' :: name.toList } := by
  have nonempty : (loopInner source name).isEmpty = false := by simp [loopInner]
  simp only [Iteration.parseLoop, unwrap_loopArgs h named, splitAs_loopInner h named, nonempty,
    Bool.false_eq_true, if_false]
  exact ofParts_loop h named "loop" _

def opener : LoopKind → List Char → Except CompileError (List Tag)
  | .loop => Builtin.loop
  | .simpleMenu => Builtin.simpleMenu

theorem opener_loopArgs (kind : LoopKind) (h : source.isOrdinary = true)
    (named : isWord name = true) :
    opener kind (loopArgs source name) = .ok (openTags kind source name) := by
  have items := Operand.pageExpression_print h
  cases kind with
  | loop =>
      simp only [opener, Builtin.loop, parseLoop_loopArgs h named]
      show Except.ok (Builtin.openLoop .loop _) = _
      simp only [Builtin.openLoop, boundName_loop named, items]
      rfl
  | simpleMenu =>
      have call : pageExpression (PageFunction.call .navMenu source.print) =
          PageFunction.call .navMenu source.code := by
        have split : ∀ args, PageFunction.call .navMenu args = "__nav_menu(".toList ++
            (args ++ [')']) :=
          fun _ => rfl
        have last : source.print.getLast? = some '$' → [')'].head?.any isWordStart = false :=
          fun _ => rfl
        have front : "__nav_menu(".toList.getLast? = some '$' →
            (source.print ++ [')']).head?.any isWordStart = false := fun same => by cases same
        rw [split, split, ← items, pageExpression, dropSigils_append front,
          dropSigils_of_noSigil (by decide), show Quotation.after .outside "__nav_menu(".toList =
            .outside from rfl, dropSigils_append last,
          dropSigils_of_noSigil (by decide : '$' ∉ [')'])]
        rfl
      simp only [opener, Builtin.simpleMenu, parse_loopArgs h named]
      show Except.ok (Builtin.openLoop .simpleMenu _) = _
      simp only [Builtin.openLoop, call]
      have bound := boundName_loop named (PageFunction.call .navMenu source.print)
      simp only [bound]
      rfl

theorem closer_noArgs (kind : LoopKind) :
    Builtin.closeLoop (endName kind) kind [] = .ok (closeTags kind) := by
  have nothing : unwrap [] = [] := unwrap_of_none rfl
  rw [Builtin.closeLoop, Builtin.withoutArguments, nothing]
  rfl

theorem visible_quoted {s : String} (h : isQuotable s = true) :
    Visible ('\'' :: (s.toList ++ ['\''])) :=
  @visible_print (.text s) h

theorem splitTopLevel_quoted {s : String} (h : isQuotable s = true) :
    splitTopLevel ',' ('\'' :: (s.toList ++ ['\''])) = ['\'' :: (s.toList ++ ['\''])] := by
  have plain := isQuotable_iff.mp h
  have inside : splitPieces ',' ⟨.inside '\'' false, 0⟩ (s.toList ++ ['\'']) =
      [s.toList ++ ['\'']] := by
    generalize s.toList = text at plain
    induction text with
    | nil => rfl
    | cons c text ih =>
        obtain ⟨⟨noMark, noSlash, -⟩, rest⟩ := List.forall_mem_cons.mp plain
        have stays : Nesting.next ⟨.inside '\'' false, 0⟩ c = ⟨.inside '\'' false, 0⟩ := by
          simp [Nesting.next, Quotation.next, noMark, noSlash]
        rw [List.cons_append, splitPieces, if_neg (by simp [Nesting.atTop]), stays, ih rest]
  have whole : splitPieces ',' {} ('\'' :: (s.toList ++ ['\''])) =
      ['\'' :: (s.toList ++ ['\''])] := by
    have opened : Nesting.next {} '\'' = ⟨.inside '\'' false, 0⟩ := rfl
    rw [splitPieces, if_neg (by simp), opened, inside]
  simp [splitTopLevel, whole, (visible_quoted h).trim_eq]

theorem unquote_quoted {s : String} (h : isQuotable s = true) :
    unquote ('\'' :: (s.toList ++ ['\''])) = some s.toList := by
  have noMark : '\'' ∉ s.toList := fun hmem => (isQuotable_iff.mp h _ hmem).1 rfl
  simp [unquote, (visible_quoted h).trim_eq, isQuote, noMark]

theorem unwrap_childArgs {slug : String} (h : isQuotable slug = true) :
    unwrap (childArgs slug) = '\'' :: (slug.toList ++ ['\'']) := by
  have counted : Counted (childArgs slug) ('\'' :: (slug.toList ++ ['\''])) :=
    ⟨')', by simp [childArgs], rfl, Operand.contained_quoted h⟩
  have once : unwrapOnce (trim (childArgs slug)) = some ('\'' :: (slug.toList ++ ['\''])) := by
    rw [counted.trim_eq]
    exact unwrapOnce_eq_some_iff.mpr counted
  rw [unwrap_of_some once]
  exact Iteration.unwrap_of_trim (visible_quoted h).trim_eq (by simp)

theorem childPartial_childArgs {slug : String} (h : isQuotable slug = true)
    (named : (childName slug).isEmpty = false) :
    Builtin.childPartial (childArgs slug) = .ok [childTag slug] := by
  have parsed : PartialCall.parse (childArgs slug) =
      .ok { name := childName slug, data := none } := by
    simp only [PartialCall.parse, unwrap_childArgs h, splitTopLevel_quoted h, unquote_quoted h]
    simp [childName] at named ⊢
    simp [named]
  rw [Builtin.childPartial, parsed]
  rfl

/-! ### Expansion -/

open Segment

variable {registry : Registry} {blocks : List OpenBlock}

theorem expandFrom_prepend (text : List Char) (segments others : List Segment) :
    expandFrom registry blocks (prepend text segments ++ others) =
      (expandFrom registry blocks (segments ++ others)).map (text ++ ·) := by
  cases segments with
  | nil => cases blocks <;> rfl
  | cons segment rest =>
      cases segment with
      | directive => cases blocks <;> rfl
      | verbatim following =>
          have joined : ∀ result : Except LocatedError (List Char),
              result.map ((text ++ following) ++ ·) = (result.map (following ++ ·)).map
                (text ++ ·) := by
            intro result
            cases result with
            | error => rfl
            | ok code => exact congrArg Except.ok (List.append_assoc ..)
          cases blocks <;> exact joined _

theorem expandFrom_behind (text : String) (segments others : List Segment) :
    expandFrom registry blocks (behind text segments ++ others) =
      (expandFrom registry blocks (segments ++ others)).map (text.toList ++ ·) := by
  unfold behind
  split
  · next empty =>
      rw [List.isEmpty_iff.mp empty]
      cases expandFrom registry blocks (segments ++ others) <;> rfl
  · exact expandFrom_prepend _ _ _

theorem expandFrom_directive {after : List OpenBlock} {name : String} {args code : List Char}
    {line : Nat} (expanded : expandDirective registry blocks name args line = .ok (after, code))
    (oneLine : '\n' ∉ args) (others : List Segment) :
    expandFrom registry blocks (.directive name args line :: others) =
      (expandFrom registry after others).map (code ++ ·) := by
  have noPadding : padding args code = [] := by simp [padding, lineBreaks_eq_zero oneLine]
  have step : expandFrom registry blocks (.directive name args line :: others) =
      (expandFrom registry after others).map (code ++ padding args code ++ ·) := by
    cases blocks <;> simp only [expandFrom, expanded] <;> rfl
  rw [step, noPadding, List.append_nil]

theorem oneLine_loopArgs (h : source.isOrdinary = true) (named : isWord name = true) :
    '\n' ∉ loopArgs source name := by
  have inName := oneLine_word (isWord_iff.mp named).2
  have inSource : '\n' ∉ source.print := by
    cases source with
    | path sigil path => cases sigil <;> simp [Operand.print, oneLine_path h]
    | text s => simp [Operand.print, oneLine_quotable h]
  simp [loopArgs, inName, inSource]

theorem expandDirective_open (kind : LoopKind) (h : source.isOrdinary = true)
    (named : isWord name = true) (line : Nat) :
    expandDirective Registry.builtin blocks kind.name (loopArgs source name) line =
      .ok ({ group := kind.name, directive := kind.name, line } :: blocks,
        printTags (openTags kind source name)) := by
  have opened := opener_loopArgs kind h named
  cases kind with
  | loop =>
      show (Except.map printTags (Builtin.loop _)).bind _ = _
      rw [show Builtin.loop = opener .loop from rfl, opened]
      rfl
  | simpleMenu =>
      show (Except.map printTags (Builtin.simpleMenu _)).bind _ = _
      rw [show Builtin.simpleMenu = opener .simpleMenu from rfl, opened]
      rfl

theorem expandDirective_close (kind : LoopKind) (block : OpenBlock)
    (inside : block.group = kind.name) (line : Nat) :
    expandDirective Registry.builtin (block :: blocks) (endName kind) [] line =
      .ok (blocks, printTags (closeTags kind)) := by
  obtain ⟨group, directive, opened⟩ := block
  cases inside
  have closed := closer_noArgs kind
  cases kind with
  | loop =>
      show (Except.map printTags (Builtin.closeLoop (endName .loop) .loop [])).bind _ = _
      rw [closed]
      rfl
  | simpleMenu =>
      show (Except.map printTags (Builtin.closeLoop (endName .simpleMenu) .simpleMenu [])).bind _ =
          _
      rw [closed]
      rfl

theorem expandDirective_child {slug : String} (h : isQuotable slug = true)
    (named : (childName slug).isEmpty = false) (line : Nat) :
    expandDirective Registry.builtin blocks "partial" (childArgs slug) line =
      .ok (blocks, printTags [childTag slug]) := by
  show (Except.map printTags (Builtin.childPartial (childArgs slug))).bind _ = _
  rw [childPartial_childArgs h named]
  rfl

theorem expandFrom_segments {script : Script} (h : script.isOrdinary = true) (line : Nat)
    (blocks : List OpenBlock) (others : List Segment) :
    expandFrom Registry.builtin blocks (script.segments line ++ others) =
      (expandFrom Registry.builtin blocks others).map (script.code ++ ·) := by
  have joined : ∀ (first second : List Char) (result : Except LocatedError (List Char)),
      (result.map (second ++ ·)).map (first ++ ·) = result.map ((first ++ second) ++ ·) := by
    intro first second result
    cases result with
    | error => rfl
    | ok code => exact congrArg Except.ok (List.append_assoc ..).symm
  induction script generalizing line blocks others with
  | done text => exact expandFrom_behind text [] others
  | echo text path rest ih =>
      simp only [isOrdinary, Bool.and_eq_true] at h
      rw [segments, expandFrom_prepend, ih h.2, joined, code, List.append_assoc]
  | child text slug rest ih =>
      simp only [isOrdinary, Bool.and_eq_true, Bool.not_eq_true'] at h
      obtain ⟨⟨⟨-, quotable⟩, named⟩, ordinary⟩ := h
      have oneLine : '\n' ∉ childArgs slug := by simp [childArgs, oneLine_quotable quotable]
      rw [segments, expandFrom_behind, List.cons_append,
        expandFrom_directive (expandDirective_child quotable named _) oneLine, ih ordinary, joined,
        joined, code, List.append_assoc]
  | loop text kind source name body rest ihBody ihRest =>
      simp only [isOrdinary, Bool.and_eq_true] at h
      obtain ⟨⟨⟨⟨⟨-, sourced⟩, named⟩, -⟩, ordinaryBody⟩, ordinaryRest⟩ := h
      rw [segments, expandFrom_behind, List.cons_append, List.append_assoc, List.cons_append,
        expandFrom_directive (expandDirective_open kind sourced (isName_iff.mp named).1 _)
          (oneLine_loopArgs sourced (isName_iff.mp named).1), ihBody ordinaryBody,
        expandFrom_directive (expandDirective_close kind _ rfl _) (by simp), ihRest ordinaryRest,
        joined, joined, joined, joined, code]
      simp only [List.append_assoc]

theorem takeBareIterations_eq_self {segments : List Segment}
    (h : ∀ name line, .directive name [] line ∈ segments →
      (registry.find? name).any (·.bareIteration) = false) :
    takeBareIterations registry segments = segments := by
  induction segments using takeBareIterations.induct registry with
  | case1 name line text rest taken? taken remaining split ih =>
      have refused := h name line List.mem_cons_self
      simp only [taken?, refused, Bool.false_eq_true, if_false] at split
      cases split
  | case2 name line text rest taken? none ih =>
      have later := ih fun name' line' hmem =>
        h name' line' (List.mem_cons_of_mem _ (List.mem_cons_of_mem _ hmem))
      have refused := h name line List.mem_cons_self
      rw [takeBareIterations]
      simp only [refused, Bool.false_eq_true, if_false, later]
  | case3 segment rest other ih =>
      have later := ih fun name line hmem => h name line (List.mem_cons_of_mem _ hmem)
      rw [takeBareIterations, later]
      exact other
  | case4 => rfl

theorem mem_prepend {name : String} {args text : List Char} {line : Nat} {segments : List Segment}
    (h : .directive name args line ∈ prepend text segments) :
      .directive name args line ∈ segments := by
  cases segments with
  | nil => simp [prepend] at h
  | cons segment rest =>
      cases segment <;> simpa [prepend] using h

theorem mem_behind {name : String} {args : List Char} {line : Nat} {text : String}
    {segments : List Segment} (h : .directive name args line ∈ behind text segments) :
    .directive name args line ∈ segments := by
  unfold behind at h
  split at h
  · exact h
  · exact mem_prepend h

/-- The only directives of a script without arguments are those that end its loops. -/
theorem bare_mem_segments {script : Script} {name : String} {line at' : Nat}
    (h : .directive name [] at' ∈ script.segments line) : ∃ kind, name = endName kind := by
  induction script generalizing line with
  | done text => exact absurd (mem_behind h) List.not_mem_nil
  | echo text path rest ih => exact ih (mem_prepend h)
  | child text slug rest ih =>
      have found := mem_behind h
      simp only [List.mem_cons, Segment.directive.injEq, childArgs, reduceCtorEq, false_and,
        and_false, false_or] at found
      exact ih found
  | loop text kind source name' body rest ihBody ihRest =>
      have found := mem_behind h
      simp only [List.mem_cons, List.mem_append, Segment.directive.injEq, loopArgs, reduceCtorEq,
        false_and, and_false, false_or] at found
      rcases found with found | ⟨rfl, -⟩ | found
      · exact ihBody found
      · exact ⟨kind, rfl⟩
      · exact ihRest found

theorem takeBareIterations_segments (script : Script) (line : Nat) :
    takeBareIterations Registry.builtin (script.segments line) = script.segments line := by
  refine takeBareIterations_eq_self fun name at' hmem => ?_
  obtain ⟨kind, rfl⟩ := bare_mem_segments hmem
  cases kind <;> rfl

/-- A source whose segments are those of a script expands to the code of the script. -/
theorem expand_eq_code {script : Script} (h : script.isOrdinary = true) {source : List Char}
    (scanned : scan source = .ok (script.segments 1)) :
    expand Registry.builtin source = .ok script.code := by
  have expanded := expandFrom_segments h 1 [] []
  rw [List.append_nil] at expanded
  unfold expand
  rw [scanned]
  show expandFrom _ _ (takeBareIterations _ _) = _
  rw [takeBareIterations_segments, expanded]
  show Except.ok (script.code ++ []) = _
  rw [List.append_nil]

end Script

end ThemeTemplates
