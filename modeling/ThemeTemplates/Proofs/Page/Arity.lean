import ThemeTemplates.Proofs.Page.Emission
import ThemeTemplates.Proofs.Text.Division

/-!
# How many arguments a call has

The list of a call is read as one argument for each part between its commas, if these parts keep
their brackets to themselves and no comma divides them. So a call in a page has as many arguments as
texts were put between its commas.
-/

namespace ThemeTemplates

/-! ### Texts that are not blank -/

/-- A character of a text is no blank of the page language. -/
def Nonblank (text : List Char) : Prop :=
  ∃ c ∈ text, isAsciiBlank c = false

theorem nonblank_of_head {c : Char} {rest : List Char} (visible : isAsciiBlank c = false) :
    Nonblank (c :: rest) :=
  ⟨c, List.mem_cons_self, visible⟩

theorem nonblank_trim {text : List Char} (kept : trim text ≠ []) : Nonblank (trim text) := by
  obtain ⟨last, found⟩ := Option.isSome_iff_exists.mp (List.getLast?_isSome.mpr kept)
  refine ⟨last, List.mem_of_getLast? found, ?_⟩
  rw [← Bool.not_eq_true]
  intro blank
  exact absurd (Part.isBlank_of_isAsciiBlank blank)
    (by simp [Part.not_blank_of_getLast?_trim found])

theorem Nonblank.pageExpression {text : List Char} (h : Nonblank text) :
    Nonblank (pageExpression text) := by
  have general : ∀ q, Nonblank (dropSigils q text) := by
    intro q
    fun_induction dropSigils q text with
    | case1 =>
        obtain ⟨c, hmem, -⟩ := h
        cases hmem
    | case2 q c rest dropped ih =>
        -- what stands behind a sigil is a letter
        refine ih ?_
        simp only [Bool.and_eq_true, Option.any_eq_true] at dropped
        obtain ⟨-, d, found, start⟩ := dropped
        exact ⟨d, List.mem_of_mem_head? found,
          not_isAsciiBlank_of_isWordChar (isWordStart_isWordChar start)⟩
    | case3 q c rest kept ih =>
        obtain ⟨d, hmem, visible⟩ := h
        rcases List.mem_cons.mp hmem with rfl | later
        · exact nonblank_of_head visible
        · obtain ⟨e, found, visible⟩ := ih ⟨d, later, visible⟩
          exact ⟨e, List.mem_cons_of_mem _ found, visible⟩
  exact general .outside

namespace Token

variable {text : List Char} {tokens : List Token}

/-! ### Tokens that fill one place of a list -/

/-- Some tokens whose brackets match, and no comma among them outside brackets. -/
structure Single (tokens : List Token) : Prop where
  nonempty : tokens ≠ []
  level : levels? 0 tokens = some 0
  noComma : ∀ front rest, tokens = front ++ sign "," :: rest → levels? 0 front ≠ some 0

theorem tokensOf_ne_nil (h : Nonblank text) : tokensOf text ≠ [] := by
  revert h
  refine tokensOf_induction (P := fun text tokens => Nonblank text → tokens ≠ []) ?_ ?_ ?_ ?_ text
  · rintro ⟨c, hmem, -⟩
    cases hmem
  · rintro c rest blank ih ⟨d, hmem, visible⟩
    refine ih ⟨d, ?_, visible⟩
    refine (List.mem_cons.mp hmem).resolve_left ?_
    rintro rfl
    cases blank.symm.trans visible
  · exact fun _ _ _ _ _ _ _ => List.cons_ne_nil _ _
  · exact fun _ _ _ _ _ _ => List.cons_ne_nil _ _

theorem Chunk.eq_comma {chunk after : List Char} (h : Chunk (.sign ",") chunk after) :
    chunk = [','] := by
  generalize same : Token.sign "," = token at h
  cases h with
  | pair => simp [String.ext_iff] at same
  | sign => simpa [String.ext_iff] using same.symm
  | literal | number | name => cases same

theorem noComma_tokensOf {rest : List Token} (depth : Nat) (h : UndividedFrom { depth } text)
    (front : List Token) (split : tokensOf text = front ++ sign "," :: rest) :
    levels? depth front ≠ some 0 := by
  revert depth front
  refine tokensOf_induction (P := fun text tokens => ∀ depth, UndividedFrom { depth } text →
    ∀ front, tokens = front ++ sign "," :: rest → levels? depth front ≠ some 0) ?_ ?_ ?_ ?_ text
  · exact fun _ _ front split => absurd split (by simp)
  · intro c blanks blank ih depth undivided
    have passed : Nesting.after { depth } [c] = { depth } :=
      Nesting.after_of_run? (run?_blanks (by simpa using Part.isBlank_of_isAsciiBlank blank) depth)
    have later := undividedFrom_append.mp (show UndividedFrom { depth } ([c] ++ blanks) from
      undivided)
    exact ih depth (passed ▸ later.2)
  · intro c more reason after _ _ depth _ front split
    cases front with
    | nil => simp at split
    | cons => simp at split
  · intro token chunk after chunked ih depth undivided front split
    obtain ⟨inChunk, later⟩ := undividedFrom_append.mp undivided
    cases front with
    | nil =>
        cases (List.cons.inj split).1
        rw [chunked.eq_comma] at inChunk
        have inside : Nesting.atTop { depth } = false := inChunk [] [] rfl
        intro top
        cases top
        cases inside
    | cons first front =>
        obtain ⟨rfl, behind⟩ := List.cons.inj split
        have ran := chunked.run? depth
        simp only [levels?]
        cases level : token.level? depth with
        | none => simp
        | some depth' =>
            rw [level] at ran
            have reached : Nesting.after { depth } chunk = { depth := depth' } :=
              Nesting.after_of_run? ran
            exact ih depth' (reached ▸ later) front behind

theorem single_tokensOf (noFlaw : ∀ reason, flaw reason ∉ tokensOf text)
    (contained : Contained text) (undivided : Undivided text) (nonblank : Nonblank text) :
      Single (tokensOf text) where
  nonempty := tokensOf_ne_nil nonblank
  level := levels?_tokensOf noFlaw contained
  noComma front _ split := noComma_tokensOf 0 undivided front split

/-- Balanced tokens that begin like those of one place, and end at a comma or at the end of the
list, are all of them. -/
theorem Single.eq_of_append (single : Single tokens) {taken rest behind : List Token}
    {stop found : String} (stops : stop ∈ [",", ")"]) (finds : found ∈ [",", ")"])
    (brackets : brackets? [] taken = some [])
    (split : tokens ++ sign stop :: rest = taken ++ sign found :: behind) : taken = tokens := by
  have ends : ∀ s ∈ [",", ")"], ∀ more, brackets? [] (tokens ++ sign s :: more) ≠ some [] := by
    intro s hs more whole
    rw [brackets?_append] at whole
    obtain ⟨pending, first, second⟩ := Option.bind_eq_some_iff.mp whole
    have level : levels? 0 tokens = some pending.length := levels?_of_brackets? first
    cases List.length_eq_zero_iff.mp (Option.some.inj (level.symm.trans single.level))
    simp only [List.mem_cons, List.not_mem_nil, or_false] at hs
    rcases hs with rfl | rfl <;> cases second
  rcases List.append_eq_append_iff.mp split with ⟨more, longer, after⟩ | ⟨more, shorter, after⟩
  · cases more with
    | nil => simpa using longer
    | cons token more =>
        obtain ⟨rfl, -⟩ := List.cons.inj after
        exact absurd (longer ▸ brackets) (ends stop stops more)
  · cases more with
    | nil => simpa using shorter.symm
    | cons token more =>
        obtain ⟨rfl, -⟩ := List.cons.inj after
        have balanced : levels? 0 taken = some 0 := levels?_of_brackets? brackets
        simp only [List.mem_cons, List.not_mem_nil, or_false] at finds
        rcases finds with rfl | rfl
        · exact absurd balanced (single.noComma taken more shorter)
        · have level := single.level
          rw [shorter, levels?_append, balanced] at level
          cases level

/-! ### Literals -/

theorem splitText_escapeLiteral (text after : List Char) :
    Literal.splitText '\'' (escapeLiteral text ++ '\'' :: after) =
      some (escapeLiteral text, after) := by
  induction text with
  | nil => rfl
  | cons c text ih =>
      unfold escapeLiteral
      split
      · simp [Literal.splitText, ih]
      · next plain =>
          simp only [Bool.or_eq_true, beq_iff_eq, not_or] at plain
          rw [List.cons_append, Literal.splitText.eq_3 _ _ _ (by simp [plain])]
          simp [plain, ih]

theorem unescape_escapeLiteral {bound : Nat} (text : List Char)
    (enough : (escapeLiteral text).length ≤ bound) :
    Literal.unescape bound (escapeLiteral text) = some text := by
  induction text generalizing bound with
  | nil => cases bound <;> rfl
  | cons c text ih =>
      unfold escapeLiteral at enough ⊢
      cases bound with
      | zero => split at enough <;> simp at enough
      | succ bound =>
          split
          · next marked =>
              rw [if_pos marked] at enough
              simp only [List.length_cons] at enough
              have rest : Literal.unescape bound (escapeLiteral text) = some text := ih (by omega)
              simp only [Bool.or_eq_true, beq_iff_eq] at marked
              rcases marked with rfl | rfl <;> simp [Literal.unescape, simpleEscape?, rest]
          · next plain =>
              rw [if_neg plain] at enough
              simp only [List.length_cons] at enough
              have rest : Literal.unescape bound (escapeLiteral text) = some text := ih (by omega)
              simp only [Bool.or_eq_true, beq_iff_eq, not_or] at plain
              rw [Literal.unescape.eq_6 _ _ _ (by simp [plain]) (by simp [plain]) (by simp [plain])]
              simp [plain, rest]

theorem tokensOf_encodeLiteral (text : List Char) :
    tokensOf (encodeLiteral text) = [literal (String.ofList text)] := by
  have chunk : Chunk (literal (String.ofList text)) ('\'' :: escapeLiteral text ++ ['\'']) [] :=
    .literal rfl (splitText_escapeLiteral text []) (unescape_escapeLiteral text le_rfl)
  simpa [encodeLiteral, tokensOf_nil] using tokensOf_chunk chunk

end Token

namespace Parse

open Token

variable {cursor cursor' reached : Cursor} {nested : Parse Expression}
  {arg : Option String × Expression} {args : List (Option String × Expression)}

/-! ### Arguments between commas -/

/-- An argument that ends at a comma or a parenthesis takes what stands in one place of the list. -/
theorem argument_single (isNested : IsNested nested) {tokens rest : List Token}
    {stop found : String} (single : Single tokens)
    (stops : stop ∈ [",", ")"]) (finds : found ∈ [",", ")"])
    (ahead : cursor.ahead.map Lexeme.token = tokens ++ .sign stop :: rest)
    (run : (argument nested).run cursor = .ok (arg, reached))
    (ends : head? reached = some (.sign found)) :
    found = stop ∧ (passed reached).ahead.map Lexeme.token = rest := by
  have reads : Reads (fun _ => False) (argument nested) fun arg => arg.2.Avoids fun _ => False :=
    argument_reads isNested.reads
  obtain ⟨taken, split, brackets, -⟩ := reads cursor arg reached run
  rw [ahead, ahead_of_head ends] at split
  cases single.eq_of_append stops finds brackets split
  have behind := List.append_cancel_left split
  cases (List.cons.inj behind).1
  exact ⟨rfl, (List.cons.inj behind).2.symm⟩

/-- What an argument is, if one literal stands in its place. -/
def Fills (tokens : List Token) (arg : Option String × Expression) : Prop :=
  ∀ text, tokens = [.literal text] → ∃ line, arg = (none, .constant line (.ofString text))

theorem fills_argument (isNested : IsNested nested) {tokens rest : List Token} {stop : String}
    (stops : stop ∉ [".", "[", "(", "|", "==", "+", "~", "="])
    (ahead : cursor.ahead.map Lexeme.token = tokens ++ .sign stop :: rest)
    (run : (argument nested).run cursor = .ok (arg, reached)) : Fills tokens arg := by
  rintro text rfl
  exact (argument_literal isNested stops ahead run).1

theorem not_close_of_single {tokens rest : List Token} (single : Single tokens)
    (ahead : cursor.ahead.map Lexeme.token = tokens ++ rest) :
    head? cursor ≠ some (.sign ")") := by
  intro close
  cases tokens with
  | nil => exact single.nonempty rfl
  | cons token tokens =>
      rw [(head?_eq ahead).1] at close
      cases close
      cases single.level

/-- One argument is read for each place of the list, and none without a name behind one with a
name. -/
theorem argumentsUntil_singles (isNested : IsNested nested) {places : List (List Token)}
    (singles : ∀ place ∈ places, Single place) {rest : List Token} {steps count : Nat}
    {named : Bool} (ahead : cursor.ahead.map Lexeme.token =
      [Token.sign ","].intercalate places ++ .sign ")" :: rest)
    (run : (argumentsUntil nested steps count named).run cursor = .ok (args, cursor')) :
    cursor'.ahead.map Lexeme.token = rest ∧ List.Forall₂ Fills places args ∧
      (∀ arg ∈ args, named = true → arg.1 ≠ none) ∧
      args.Pairwise fun first second => first.1 ≠ none → second.1 ≠ none := by
  induction steps generalizing cursor places count named args with
  | zero => exact absurd run (not_ok_of_fails fails_unexpected)
  | succ steps ih =>
      cases places with
      | nil =>
          obtain ⟨first, behind⟩ := head?_eq ahead
          unfold argumentsUntil at run
          cases passed_of_skipSign first run
          exact ⟨behind, .nil, by simp, .nil⟩
      | cons place places =>
          obtain ⟨single, singles⟩ := List.forall_mem_cons.mp singles
          cases places with
          | nil =>
              rw [List.intercalate_singleton] at ahead
              obtain ⟨arg, reached, ran, ordered, ends⟩ :=
                argumentsUntil_step (not_close_of_single single ahead) run
              have fills : Fills place arg := fills_argument isNested (by decide) ahead ran
              rcases ends with ⟨comma, -⟩ | ⟨close, rfl, rfl⟩
              · exact absurd (argument_single isNested single (by simp) (by simp) ahead ran comma).1
                  (by decide)
              · obtain ⟨-, behind⟩ :=
                  argument_single isNested single (by simp) (by simp) ahead ran close
                exact ⟨behind, .cons fills .nil, by
                  simpa using ordered, List.pairwise_singleton _ _⟩
          | cons next places =>
              rw [List.intercalate_cons_cons, List.append_assoc, List.append_assoc] at ahead
              obtain ⟨arg, reached, ran, ordered, ends⟩ :=
                argumentsUntil_step (not_close_of_single single ahead) run
              have fills : Fills place arg := fills_argument isNested (by decide) ahead ran
              rcases ends with ⟨comma, others, rfl, reading⟩ | ⟨close, -⟩
              · obtain ⟨-, behind⟩ :=
                  argument_single isNested single (by simp) (by simp) ahead ran comma
                obtain ⟨atEnd, filled, named', sorted⟩ := ih singles behind reading
                have goesOn : arg.1 ≠ none → ∀ later ∈ others, later.1 ≠ none :=
                  fun before later hmem => named' later hmem (Option.isSome_iff_ne_none.mpr before)
                have unnamed : named = true → arg.1 ≠ none := by simpa using ordered
                refine ⟨atEnd, .cons fills filled, ?_, List.pairwise_cons.mpr ⟨?_, sorted⟩⟩
                · exact List.forall_mem_cons.mpr
                    ⟨unnamed, fun later hmem before => goesOn (unnamed before) later hmem⟩
                · exact fun later hmem before => goesOn before later hmem
              · exact absurd (argument_single isNested single (by simp) (by simp) ahead ran close).1
                  (by decide)

/-- If at most one argument has a name, each of them is an operand of the call. -/
theorem length_operands {line : Nat} {operands : List Expression} {places : List (List Token)}
    (fewNames : ∀ args, List.Forall₂ Fills places args →
      (args.Pairwise fun first second => first.1 ≠ none → second.1 ≠ none) →
      (args.filter fun arg => arg.1.isSome).length ≤ 1)
    (isNested : IsNested nested) (singles : ∀ place ∈ places, Single place) {rest : List Token}
    (ahead : cursor.ahead.map Lexeme.token =
      [Token.sign ","].intercalate places ++ .sign ")" :: rest)
    (run : (arguments nested line).run cursor = .ok (operands, cursor')) :
    cursor'.ahead.map Lexeme.token = rest ∧ operands.length = places.length := by
  obtain ⟨n, args, ran, shape⟩ := arguments_cases run
  obtain ⟨behind, filled, -, sorted⟩ := argumentsUntil_singles isNested singles ahead ran
  refine ⟨behind, ?_⟩
  rw [filled.length_eq]
  rcases shape with ⟨-, rfl⟩ | ⟨named, entries, rfl⟩
  · exact List.length_map _
  · have atLeast : 0 < (args.filter fun arg => arg.1.isSome).length := List.length_pos_iff.mpr named
    have atMost := fewNames args filled sorted
    have total := List.length_eq_length_filter_add (l := args) fun arg => arg.1.isSome
    simp only [Option.not_isSome] at total
    simp only [List.length_append, List.length_map, List.length_singleton]
    omega

theorem fewNames_one {place : List Token} (args : List (Option String × Expression))
    (filled : List.Forall₂ Fills [place] args) :
    (args.filter fun arg => arg.1.isSome).length ≤ 1 :=
  (List.length_filter_le _ args).trans filled.length_eq.ge

/-- Of two arguments one of which is a literal no more than one has a name: names come last. -/
theorem fewNames_two {first second : List Token} {text : String}
    (literal : first = [.literal text] ∨ second = [.literal text])
    (args : List (Option String × Expression)) (filled : List.Forall₂ Fills [first, second] args)
    (sorted : args.Pairwise fun first second => first.1 ≠ none → second.1 ≠ none) :
    (args.filter fun arg => arg.1.isSome).length ≤ 1 := by
  obtain ⟨a, _, fillsFirst, others, rfl⟩ := List.forall₂_cons_left_iff.mp filled
  obtain ⟨b, _, fillsSecond, nothing, rfl⟩ := List.forall₂_cons_left_iff.mp others
  cases List.forall₂_nil_left_iff.mp nothing
  have unnamed : a.1 = none := by
    rcases literal with same | same
    · obtain ⟨line, rfl⟩ := fillsFirst text same
      rfl
    · obtain ⟨line, rfl⟩ := fillsSecond text same
      by_contra named
      exact (List.pairwise_pair.mp sorted) named rfl
  rw [List.filter_cons_of_neg (by simp [unnamed])]
  exact List.length_filter_le _ [b]

end Parse

open Parse Token

/-- A text is read as an expression, in front of a token with which no expression goes on. -/
def ReadsAs (code : List Char) (value : Expression) : Prop :=
  ∃ levels cursor cursor' stop rest, Inert (some stop) ∧
    cursor.ahead.map Lexeme.token = tokensOf code ++ stop :: rest ∧
    (expressionWithin levels).run cursor = .ok (value, cursor') ∧
    cursor'.ahead.map Lexeme.token = stop :: rest

/-- However a text is read, it is a call of a function with so many arguments. -/
def CallsWith (function : PageFunction) (count : Nat) (code : List Char) : Prop :=
  ∀ value, ReadsAs code value →
    ∃ line operands, value = .call line function.name operands ∧ operands.length = count

theorem ReadsAs.noFlaw {code : List Char} {value : Expression} (h : ReadsAs code value)
    (reason : PageFlaw) : flaw reason ∉ tokensOf code := by
  obtain ⟨levels, cursor, cursor', stop, rest, -, ahead, run, behind⟩ := h
  have reads : Reads (fun _ => False) (expressionWithin levels)
      (Expression.Avoids fun _ => False) :=
    expressionWithin_reads levels
  obtain ⟨taken, split, brackets, -⟩ := reads cursor value cursor' run
  rw [ahead, behind] at split
  cases List.append_cancel_right split
  exact noFlaw_of_brackets? brackets reason

section

variable {function : PageFunction} {passed first second : List Char}

theorem callsWith_length (places : List (List Token))
    (placed : (∀ reason, flaw reason ∉ tokensOf (passed ++ [')'])) →
      tokensOf (passed ++ [')']) = [Token.sign ","].intercalate places ++ [.sign ")"] ∧
        ∀ place ∈ places, Single place)
    (fewNames : ∀ args, List.Forall₂ Fills places args →
      (args.Pairwise fun first second => first.1 ≠ none → second.1 ≠ none) →
      (args.filter fun arg => arg.1.isSome).length ≤ 1) :
    CallsWith function places.length (function.call passed) := by
  intro value readsAs
  have noFlaw := readsAs.noFlaw
  obtain ⟨levels, cursor, cursor', stop, rest, inert, ahead, run, -⟩ := readsAs
  have tokens := tokensOf_call function passed []
  rw [List.append_nil] at tokens
  rw [tokens] at ahead noFlaw
  obtain ⟨cut, singles⟩ := placed fun reason hmem =>
    noFlaw reason (List.mem_cons_of_mem _ (List.mem_cons_of_mem _ hmem))
  rw [cut, List.cons_append, List.cons_append, List.append_assoc] at ahead
  obtain ⟨nested, line, operands, start, atEnd, isNested, inside, reading, called⟩ :=
    expressionWithin_arguments (Spells.word_name function) (by cases function <;> decide) ahead run
  obtain ⟨behind, length⟩ := length_operands fewNames isNested singles inside reading
  obtain ⟨⟨line, rfl⟩, -⟩ := called (by rw [(head?_eq behind).1]; exact inert)
  exact ⟨line, operands, rfl, length⟩

theorem tokensOf_append_of_noFlaw {text more : List Char} (contained : Contained text)
    (delimits : Delimits more) (noFlaw : ∀ reason, flaw reason ∉ tokensOf (text ++ more)) :
    (∀ reason, flaw reason ∉ tokensOf text) ∧
      tokensOf (text ++ more) = tokensOf text ++ tokensOf more := by
  rcases tokensOf_append contained.closed delimits with ⟨reason, hmem, same⟩ | whole
  · exact absurd (same ▸ hmem) (noFlaw reason)
  · exact whole

/-- A text that keeps its brackets to itself and is one argument of a list, if it can be read. -/
structure OnePlace (text : List Char) : Prop where
  contained : Contained text
  single : (∀ reason, flaw reason ∉ tokensOf text) → Single (tokensOf text)

theorem OnePlace.of_undivided {text : List Char} (contained : Contained text)
    (undivided : Undivided text) (nonblank : Nonblank text) : OnePlace text :=
  ⟨contained, fun noFlaw => single_tokensOf noFlaw contained undivided nonblank⟩

theorem OnePlace.encodeLiteral (text : List Char) : OnePlace (encodeLiteral text) := by
  refine ⟨(Emittable.encodeLiteral text).contained, fun _ => ?_⟩
  rw [tokensOf_encodeLiteral]
  refine ⟨List.cons_ne_nil _ _, rfl, fun front rest split => ?_⟩
  cases front <;> simp at split

theorem undivided_call (function : PageFunction) {args : List Char} (contained : Contained args) :
    Undivided (function.call args) := by
  have name : ',' ∉ function.name.toList := fun hmem =>
    absurd ((name_word function).2 ',' hmem) (by decide)
  have reached : Nesting.after {} function.name.toList = {} :=
    Nesting.after_of_run? (Emittable.contained_name function)
  refine undividedFrom_append.mpr ⟨undividedFrom_of_noComma name _, ?_⟩
  rw [reached]
  refine undividedFrom_cons.mpr ⟨by simp, undividedFrom_append.mpr ⟨?_, ?_⟩⟩
  · exact undividedFrom_within contained
  · exact undividedFrom_of_noComma (by simp) _

theorem OnePlace.call (function : PageFunction) {args : List Char} (contained : Contained args) :
    OnePlace (function.call args) := by
  refine .of_undivided (Emittable.contained_call function contained)
    (undivided_call function contained)
    ⟨'(', by simp [PageFunction.call], by decide⟩

/-! ### Calls -/

theorem callsWith_one (h : OnePlace passed) : CallsWith function 1 (function.call passed) := by
  refine callsWith_length [tokensOf passed] (fun noFlaw => ?_)
    fun args filled _ => fewNames_one args filled
  obtain ⟨noFlaw, same⟩ :=
    tokensOf_append_of_noFlaw h.contained (Emittable.delimits_close []) noFlaw
  rw [same, Emittable.close_tokens, List.intercalate_singleton]
  exact ⟨rfl, List.forall_mem_singleton.mpr (h.single noFlaw)⟩

theorem callsWith_two (hfirst : OnePlace first) (hsecond : OnePlace second) {text : String}
    (literal : tokensOf first = [.literal text] ∨ tokensOf second = [.literal text]) :
    CallsWith function 2 (function.call (Builtin.commaSeparated first second)) := by
  refine callsWith_length [tokensOf first, tokensOf second] (fun noFlaw => ?_)
    fun args filled sorted => fewNames_two literal args filled sorted
  rw [commaSeparated_close] at noFlaw ⊢
  obtain ⟨noFlawFirst, same⟩ := tokensOf_append_of_noFlaw hfirst.contained (delimits_comma _) noFlaw
  rw [same, tokensOf_comma] at noFlaw ⊢
  obtain ⟨noFlawSecond, same⟩ := tokensOf_append_of_noFlaw hsecond.contained
    (Emittable.delimits_close [])
    fun reason hmem => noFlaw reason (List.mem_append_right _ (List.mem_cons_of_mem _ hmem))
  rw [same, Emittable.close_tokens, List.intercalate_cons_cons, List.intercalate_singleton]
  refine ⟨by simp [tokensOf_nil], List.forall_mem_cons.mpr ⟨hfirst.single noFlawFirst, ?_⟩⟩
  exact List.forall_mem_singleton.mpr (hsecond.single noFlawSecond)

end

end ThemeTemplates
