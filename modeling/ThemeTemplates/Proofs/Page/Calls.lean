import ThemeTemplates.Proofs.Page.Expressions

/-!
# How calls with a literal at their end are read

Directives call the functions of a loop with the kind of the loop as the last argument. What stands
in front of it may be any text of a template, but the literal stays an argument of its own.
-/

namespace ThemeTemplates.Parse

open Expression

variable {hidden : String → Prop} {cursor cursor' : Cursor} {value base : Expression}
  {nested : Parse Expression}

/-! ### Where an expression stops -/

def Inert (head : Option Token) : Prop :=
  (∀ s ∈ [".", "[", "(", "|", "==", "+", "~"], head ≠ some (.sign s)) ∧ head ≠ some (.name "is")

theorem Inert.not_sign {head : Option Token} (h : Inert head) {s : String}
    (hmem : s ∈ [".", "[", "(", "|", "==", "+", "~"]) : head ≠ some (.sign s) :=
  h.1 s hmem

theorem eq_of_skipSign {α : Type} {s : String} (other : head? cursor ≠ some (.sign s))
    {next : Bool → Parse α} {a : α}
    (run : (Parse.skipSign s >>= next).run cursor = .ok (a, cursor')) :
    (next false).run cursor = .ok (a, cursor') := by
  obtain ⟨found, reached, ran, rest⟩ := ok_of_run_bind run
  rcases run_skipSign ran with ⟨-, ahead, -⟩ | ⟨rfl, -, rfl⟩
  · exact absurd ahead other
  · exact rest

theorem eq_of_skipName {α : Type} {s : String} (other : head? cursor ≠ some (.name s))
    {next : Bool → Parse α} {a : α}
    (run : (Parse.skipName s >>= next).run cursor = .ok (a, cursor')) :
    (next false).run cursor = .ok (a, cursor') := by
  obtain ⟨found, reached, ran, rest⟩ := ok_of_run_bind run
  rcases run_skipName ran with ⟨-, ahead, -⟩ | ⟨rfl, -, rfl⟩
  · exact absurd ahead other
  · exact rest

theorem passed_of_skipSign {α : Type} {s : String} (ahead : head? cursor = some (.sign s))
    {next : Bool → Parse α} {a : α}
    (run : (Parse.skipSign s >>= next).run cursor = .ok (a, cursor')) :
    (next true).run (passed cursor) = .ok (a, cursor') := by
  obtain ⟨found, reached, ran, rest⟩ := ok_of_run_bind run
  rcases run_skipSign ran with ⟨rfl, -, rfl⟩ | ⟨-, other, -⟩
  · exact rest
  · exact absurd ahead other

theorem passed_of_skipName {α : Type} {s : String} (ahead : head? cursor = some (.name s))
    {next : Bool → Parse α} {a : α}
    (run : (Parse.skipName s >>= next).run cursor = .ok (a, cursor')) :
    (next true).run (passed cursor) = .ok (a, cursor') := by
  obtain ⟨found, reached, ran, rest⟩ := ok_of_run_bind run
  rcases run_skipName ran with ⟨rfl, -, rfl⟩ | ⟨-, other, -⟩
  · exact rest
  · exact absurd ahead other

theorem steps_inert (inert : Inert (head? cursor)) {line n : Nat}
    (run : (steps nested line n base).run cursor = .ok (value, cursor')) :
    value = base ∧ cursor' = cursor := by
  cases n with
  | zero =>
      cases run
      exact ⟨rfl, rfl⟩
  | succ n =>
      have noPoint := eq_of_skipSign (inert.not_sign (by simp)) run
      have noElement := eq_of_skipSign (inert.not_sign (by simp)) noPoint
      have noCall := eq_of_skipSign (inert.not_sign (by simp)) noElement
      cases noCall
      exact ⟨rfl, rfl⟩

theorem filters_inert (inert : Inert (head? cursor)) {parts : Parts} {n : Nat}
    (run : (filters parts n base).run cursor = .ok (value, cursor')) :
    value = base ∧ cursor' = cursor := by
  cases n with
  | zero =>
      cases run
      exact ⟨rfl, rfl⟩
  | succ n =>
      have noFilter := eq_of_skipSign (inert.not_sign (by simp)) run
      have noTest := eq_of_skipName inert.2 noFilter
      cases noTest
      exact ⟨rfl, rfl⟩

theorem joined_inert {s : String} (other : head? cursor ≠ some (.sign s)) {part : Parse Expression}
    {n : Nat} {operands : List Expression}
    (run : (joined s part n).run cursor = .ok (operands, cursor')) :
    operands = [] ∧ cursor' = cursor := by
  cases n with
  | zero =>
      cases run
      exact ⟨rfl, rfl⟩
  | succ n =>
      have noOperand := eq_of_skipSign other run
      cases noOperand
      exact ⟨rfl, rfl⟩

theorem chain_inert {s : String} {combine : Expression → Expression → Expression}
    {part : Parse Expression} (run : (chain s combine part).run cursor = .ok (value, cursor')) :
    ∃ first reached, part.run cursor = .ok (first, reached) ∧
      (head? reached ≠ some (.sign s) → value = first ∧ cursor' = reached) := by
  obtain ⟨first, reached, ran, rest⟩ := ok_of_run_bind run
  refine ⟨first, reached, ran, fun other => ?_⟩
  obtain ⟨n, unmoved, bounded, behind⟩ := ok_of_run_bind rest
  cases looks_bound _ _ _ bounded
  obtain ⟨operands, stop, joining, last⟩ := ok_of_run_bind behind
  obtain ⟨rfl, rfl⟩ := joined_inert other joining
  cases last
  exact ⟨rfl, rfl⟩

theorem comparison_inert {part : Parse Expression}
    (run : (comparison part).run cursor = .ok (value, cursor')) :
    ∃ first reached, part.run cursor = .ok (first, reached) ∧
      (head? reached ≠ some (.sign "==") → value = first ∧ cursor' = reached) := by
  obtain ⟨first, reached, ran, rest⟩ := ok_of_run_bind run
  refine ⟨first, reached, ran, fun other => ?_⟩
  obtain ⟨n, unmoved, bounded, behind⟩ := ok_of_run_bind rest
  cases looks_bound _ _ _ bounded
  obtain ⟨operands, stop, joining, last⟩ := ok_of_run_bind behind
  obtain ⟨rfl, rfl⟩ := joined_inert other joining
  cases last
  exact ⟨rfl, rfl⟩

theorem factor_inert {parts : Parts} (run : (factor parts).run cursor = .ok (value, cursor')) :
    ∃ first reached, (signedSteps parts).run cursor = .ok (first, reached) ∧
      (Inert (head? reached) → value = first ∧ cursor' = reached) := by
  obtain ⟨n, unmoved, bounded, rest⟩ := ok_of_run_bind run
  cases looks_bound _ _ _ bounded
  obtain ⟨first, reached, ran, rest⟩ := ok_of_run_bind rest
  exact ⟨first, reached, ran, fun inert => filters_inert inert rest⟩

/-- What is read where the word `not` is not next begins with an operand and its steps. If no
expression goes on behind them, they are all of it. -/
theorem negation_inert {parts : Parts} {n : Nat} (other : head? cursor ≠ some (.name "not"))
    (run : (negation parts n).run cursor = .ok (value, cursor')) :
    ∃ first reached, (signedSteps parts).run cursor = .ok (first, reached) ∧
      (Inert (head? reached) → value = first ∧ cursor' = reached) := by
  cases n with
  | zero =>
      obtain ⟨error, failed⟩ := fails_unexpected (α := Expression) cursor
      cases run.symm.trans failed
  | succ n =>
      have plain := eq_of_skipName other run
      obtain ⟨whole, atEqual, summing, equalEnds⟩ := comparison_inert plain
      obtain ⟨term, atSum, joining, sumEnds⟩ := chain_inert summing
      obtain ⟨part, atJoin, reading, joinEnds⟩ := chain_inert joining
      obtain ⟨first, reached, ran, factorEnds⟩ := factor_inert reading
      refine ⟨first, reached, ran, fun inert => ?_⟩
      obtain ⟨rfl, rfl⟩ := factorEnds inert
      obtain ⟨rfl, rfl⟩ := joinEnds (inert.not_sign (by simp))
      obtain ⟨rfl, rfl⟩ := sumEnds (inert.not_sign (by simp))
      exact equalEnds (inert.not_sign (by simp))

/-! ### Operands -/

/-- How the expressions between brackets and behind operands are read. -/
def IsNested (nested : Parse Expression) : Prop :=
  nested = tooDeep ∨ ∃ levels, nested = expressionWithin levels

structure ArePlain (parts : Parts) : Prop where
  operand : parts.operand = tooDeep ∨ ∃ nested, IsNested nested ∧ parts.operand = operand nested
  nested : IsNested parts.nested

theorem exists_parts (levels : Nat) :
    ∃ parts, ArePlain parts ∧ expressionWithin levels = (do negation parts (← bound)) := by
  cases levels using expressionWithin.induct with
  | case1 => exact ⟨⟨tooDeep, tooDeep⟩, ⟨.inl rfl, .inl rfl⟩, rfl⟩
  | case2 =>
      exact ⟨⟨operand tooDeep, expressionWithin 0⟩, ⟨.inr ⟨_, .inl rfl, rfl⟩, .inr ⟨0, rfl⟩⟩, rfl⟩
  | case3 levels =>
      exact ⟨⟨operand (expressionWithin levels), expressionWithin (levels + 1)⟩,
        ⟨.inr ⟨_, .inr ⟨levels, rfl⟩, rfl⟩, .inr ⟨levels + 1, rfl⟩⟩, rfl⟩

theorem not_ok_of_fails {α : Type} {parse : Parse α} (h : Fails parse) {a : α} :
    parse.run cursor ≠ .ok (a, cursor') := by
  intro run
  obtain ⟨error, failed⟩ := h cursor
  cases run.symm.trans failed

theorem peek_eq {α : Type} {next : Option Token → Parse α} {a : α}
    (run : (peek >>= next).run cursor = .ok (a, cursor')) :
    (next (head? cursor)).run cursor = .ok (a, cursor') := by
  obtain ⟨head, reached, ran, rest⟩ := ok_of_run_bind run
  obtain ⟨rfl, rfl, -⟩ := run_peek ran
  exact rest

theorem passed_of_discard (run : (Functor.discard Parse.next).run cursor = .ok ((), cursor')) :
    cursor' = passed cursor := by
  rw [run_discard_next] at run
  cases peeked : peek.run cursor with
  | error error =>
      rw [peeked] at run
      cases run
  | ok seen =>
      obtain ⟨rfl, -, -⟩ := run_peek peeked
      rw [peeked] at run
      cases run
      rfl

theorem discard_eq {α : Type} {next : Unit → Parse α} {a : α}
    (run : (Functor.discard Parse.next >>= next).run cursor = .ok (a, cursor')) :
    (next ()).run (passed cursor) = .ok (a, cursor') := by
  obtain ⟨_, reached, ran, rest⟩ := ok_of_run_bind run
  cases passed_of_discard ran
  exact rest

theorem look_eq {α β : Type} {look : Parse β} (h : Looks look) {next : β → Parse α} {a : α}
    (run : (look >>= next).run cursor = .ok (a, cursor')) :
    ∃ seen, look.run cursor = .ok (seen, cursor) ∧ (next seen).run cursor = .ok (a, cursor') := by
  obtain ⟨seen, reached, ran, rest⟩ := ok_of_run_bind run
  cases h _ _ _ ran
  exact ⟨seen, ran, rest⟩

theorem operand_name {s : String} (ahead : head? cursor = some (.name s))
    (run : (operand nested).run cursor = .ok (value, cursor')) :
    (∃ line, value = word line s) ∧ cursor' = passed cursor := by
  obtain ⟨line, -, rest⟩ := look_eq looks_nextLine run
  have known := peek_eq rest
  rw [ahead] at known
  cases discard_eq known
  exact ⟨⟨line, rfl⟩, rfl⟩

theorem operand_literal {s : String} (ahead : head? cursor = some (.literal s))
    (alone : ∀ t, head? (passed cursor) ≠ some (.literal t))
    (run : (operand nested).run cursor = .ok (value, cursor')) :
    (∃ line, value = .constant line (.ofString s)) ∧ cursor' = passed cursor := by
  obtain ⟨line, -, rest⟩ := look_eq looks_nextLine run
  have known := peek_eq rest
  rw [ahead] at known
  obtain ⟨n, bounded, joining⟩ := look_eq looks_bound (discard_eq known)
  cases n with
  | zero => cases bounded
  | succ n =>
      obtain ⟨more, stop, reading, rest⟩ := ok_of_run_bind joining
      obtain ⟨head, reached, seen, last⟩ := ok_of_run_bind reading
      obtain ⟨rfl, rfl, -⟩ := peeks_peekBehindLiteral _ _ _ seen
      split at last
      · next t same => exact absurd same (alone t)
      · cases last
        cases rest
        exact ⟨⟨line, by rw [String.append_empty]⟩, rfl⟩

theorem operand_stuck {s : String} (ahead : head? cursor = some (.sign s))
    (other : s ∉ ["(", "[", "\x7b"]) : (operand nested).run cursor ≠ .ok (value, cursor') := by
  intro run
  obtain ⟨line, -, rest⟩ := look_eq looks_nextLine run
  have known := peek_eq rest
  rw [ahead] at known
  simp only [List.mem_cons, List.not_mem_nil, or_false, not_or] at other
  split at known
  · next same => cases same
  · next same => cases same
  · next same => cases same
  · next same => exact other.1 (by simpa using same)
  · next same => exact other.2.1 (by simpa using same)
  · next same => exact other.2.2 (by simpa using same)
  · exact not_ok_of_fails fails_unexpected known

theorem signedSteps_operand {parts : Parts} (unsigned : head? cursor ≠ some (.sign "-"))
    (run : (signedSteps parts).run cursor = .ok (value, cursor')) :
    ∃ line n base reached, parts.operand.run cursor = .ok (base, reached) ∧
      (steps parts.nested line (n + 1) base).run reached = .ok (value, cursor') := by
  obtain ⟨line, -, rest⟩ := look_eq looks_nextLine run
  obtain ⟨n, bounded, behind⟩ := look_eq looks_bound rest
  obtain ⟨base, reached, ran, last⟩ := ok_of_run_bind behind
  cases n with
  | zero => cases bounded
  | succ n =>
      obtain ⟨signLine, -, unsignedRan⟩ := look_eq looks_nextLine ran
      exact ⟨line, n, base, reached, eq_of_skipSign unsigned unsignedRan, last⟩

theorem ArePlain.operand_eq {parts : Parts} (h : ArePlain parts)
    (run : parts.operand.run cursor = .ok (value, cursor')) :
    ∃ nested, IsNested nested ∧ (Parse.operand nested).run cursor = .ok (value, cursor') := by
  rcases h.operand with failing | ⟨nested, isNested, same⟩
  · rw [failing] at run
    exact absurd run (not_ok_of_fails fails_tooDeep)
  · rw [same] at run
    exact ⟨nested, isNested, run⟩

theorem expressionWithin_operand {levels : Nat} (noNot : head? cursor ≠ some (.name "not"))
    (unsigned : head? cursor ≠ some (.sign "-"))
    (run : (expressionWithin levels).run cursor = .ok (value, cursor')) :
    ∃ within behind line n base reached stepped atEnd, IsNested within ∧ IsNested behind ∧
      (operand within).run cursor = .ok (base, reached) ∧
      (steps behind line (n + 1) base).run reached = .ok (stepped, atEnd) ∧
      (Inert (head? atEnd) → value = stepped ∧ cursor' = atEnd) := by
  obtain ⟨parts, plain, same⟩ := exists_parts levels
  rw [same] at run
  obtain ⟨n, -, negated⟩ := look_eq looks_bound run
  obtain ⟨stepped, atEnd, stepping, ends⟩ := negation_inert noNot negated
  obtain ⟨line, count, base, reached, operating, steps⟩ := signedSteps_operand unsigned stepping
  obtain ⟨within, isNested, ran⟩ := plain.operand_eq operating
  exact ⟨within, parts.nested, line, count, base, reached, stepped, atEnd, isNested, plain.nested,
    ran, steps, ends⟩

theorem expressionWithin_name {levels : Nat} {s : String} (ahead : head? cursor = some (.name s))
    (noNot : s ≠ "not") (inert : Inert (head? (passed cursor)))
    (run : (expressionWithin levels).run cursor = .ok (value, cursor')) :
    (∃ line, value = word line s) ∧ cursor' = passed cursor := by
  obtain ⟨_, _, _, _, base, reached, stepped, atEnd, -, -, operating, stepping, ends⟩ :=
    expressionWithin_operand (by simpa [ahead] using noNot) (by simp [ahead]) run
  obtain ⟨⟨line, rfl⟩, rfl⟩ := operand_name ahead operating
  obtain ⟨rfl, rfl⟩ := steps_inert inert stepping
  obtain ⟨rfl, rfl⟩ := ends inert
  exact ⟨⟨line, rfl⟩, rfl⟩

theorem expressionWithin_literal {levels : Nat} {s : String}
    (ahead : head? cursor = some (.literal s)) (inert : Inert (head? (passed cursor)))
    (alone : ∀ t, head? (passed cursor) ≠ some (.literal t))
    (run : (expressionWithin levels).run cursor = .ok (value, cursor')) :
    (∃ line, value = .constant line (.ofString s)) ∧ cursor' = passed cursor := by
  obtain ⟨_, _, _, _, base, reached, stepped, atEnd, -, -, operating, stepping, ends⟩ :=
    expressionWithin_operand (by simp [ahead]) (by simp [ahead]) run
  obtain ⟨⟨line, rfl⟩, rfl⟩ := operand_literal ahead alone operating
  obtain ⟨rfl, rfl⟩ := steps_inert inert stepping
  obtain ⟨rfl, rfl⟩ := ends inert
  exact ⟨⟨line, rfl⟩, rfl⟩

theorem expressionWithin_stuck {levels : Nat} {s : String} (ahead : head? cursor = some (.sign s))
    (other : s ∉ ["(", "[", "\x7b", "-"]) :
    (expressionWithin levels).run cursor ≠ .ok (value, cursor') := by
  intro run
  simp only [List.mem_cons, List.not_mem_nil, or_false, not_or] at other
  obtain ⟨_, _, _, _, _, _, _, _, -, -, operating, -⟩ :=
    expressionWithin_operand (by simp [ahead]) (by simpa [ahead] using other.2.2.2) run
  exact operand_stuck ahead (by simp [other]) operating

theorem expressionWithin_not_stuck {levels : Nat} {s : String}
    (ahead : head? cursor = some (.name "not")) (behind : head? (passed cursor) = some (.sign s))
    (other : s ∉ ["(", "[", "\x7b", "-"]) :
    (expressionWithin levels).run cursor ≠ .ok (value, cursor') := by
  intro run
  obtain ⟨parts, plain, same⟩ := exists_parts levels
  rw [same] at run
  obtain ⟨n, bounded, negated⟩ := look_eq looks_bound run
  cases n with
  | zero => cases bounded
  | succ n =>
      obtain ⟨operand, reached, ran, -⟩ := ok_of_run_bind (passed_of_skipName ahead negated)
      obtain ⟨first, stop, stepping, -⟩ := negation_inert (by simp [behind]) ran
      simp only [List.mem_cons, List.not_mem_nil, or_false, not_or] at other
      have unsigned : head? (passed cursor) ≠ some (.sign "-") := by
        simpa [behind] using other.2.2.2
      obtain ⟨_, _, _, _, operating, -⟩ := signedSteps_operand unsigned stepping
      obtain ⟨nested, -, ran'⟩ := plain.operand_eq operating
      exact operand_stuck behind (by simp [other]) ran'

/-! ### Arguments -/

theorem IsNested.reads (h : IsNested nested) : Reads hidden nested (Avoids hidden) := by
  rcases h with rfl | ⟨levels, rfl⟩
  · exact fails_tooDeep.takes
  · exact expressionWithin_reads levels

theorem IsNested.eq_of_run (h : IsNested nested)
    (run : nested.run cursor = .ok (value, cursor')) :
    ∃ levels, (expressionWithin levels).run cursor = .ok (value, cursor') := by
  rcases h with rfl | ⟨levels, rfl⟩
  · exact absurd run (not_ok_of_fails fails_tooDeep)
  · exact ⟨levels, run⟩

theorem argument_unnamed {arg : Option String × Expression}
    (run : (argument nested).run cursor = .ok (arg, cursor')) :
    ∃ reached, nested.run cursor = .ok (arg.2, reached) ∧ arg.1 = none ∧ cursor' = reached ∨
      ∃ e, nested.run cursor = .ok (e, reached) ∧ head? reached = some (.sign "=") := by
  obtain ⟨e, reached, ran, rest⟩ := ok_of_run_bind run
  refine ⟨reached, ?_⟩
  split at rest
  · obtain ⟨found, at', skipped, behind⟩ := ok_of_run_bind rest
    rcases run_skipSign skipped with ⟨rfl, ahead, rfl⟩ | ⟨rfl, -, rfl⟩
    · exact .inr ⟨_, ran, ahead⟩
    · cases behind
      exact .inl ⟨ran, rfl, rfl⟩
  · cases rest
    exact .inl ⟨ran, rfl, rfl⟩

theorem argument_eq {arg : Option String × Expression} {e : Expression} {reached : Cursor}
    (ran : nested.run cursor = .ok (e, reached)) (other : head? reached ≠ some (.sign "="))
    (run : (argument nested).run cursor = .ok (arg, cursor')) :
    arg = (none, e) ∧ cursor' = reached := by
  obtain ⟨stop, ⟨ran', unnamed, rfl⟩ | ⟨_, ran', ahead⟩⟩ := argument_unnamed run
  · cases ran.symm.trans ran'
    exact ⟨Prod.ext unnamed rfl, rfl⟩
  · cases ran.symm.trans ran'
    exact absurd ahead other

theorem inert_sign {s : String} (h : s ∉ [".", "[", "(", "|", "==", "+", "~"]) :
    Inert (some (.sign s)) := by
  refine ⟨fun t ht same => ?_, by simp⟩
  cases same
  exact h ht

theorem head?_eq {token : Token} {tokens : List Token}
    (h : cursor.ahead.map Lexeme.token = token :: tokens) :
    head? cursor = some token ∧ (passed cursor).ahead.map Lexeme.token = tokens := by
  have first : head? cursor = some token := by
    unfold head?
    rw [← List.head?_map, h]
    rfl
  rw [ahead_of_head first] at h
  exact ⟨first, (List.cons.inj h).2⟩

theorem argument_literal (isNested : IsNested nested) {arg : Option String × Expression}
    {text stop : String} {tokens : List Token}
    (ends : stop ∉ [".", "[", "(", "|", "==", "+", "~", "="])
    (ahead : cursor.ahead.map Lexeme.token = .literal text :: .sign stop :: tokens)
    (run : (argument nested).run cursor = .ok (arg, cursor')) :
    (∃ line, arg = (none, .constant line (.ofString text))) ∧ cursor' = passed cursor := by
  obtain ⟨first, behind⟩ := head?_eq ahead
  obtain ⟨second, -⟩ := head?_eq behind
  obtain ⟨e, reached, ran, -⟩ := ok_of_run_bind run
  obtain ⟨levels, ran'⟩ := isNested.eq_of_run ran
  simp only [List.mem_cons, List.not_mem_nil, or_false, not_or] at ends
  obtain ⟨⟨line, rfl⟩, rfl⟩ := expressionWithin_literal first
    (by rw [second]; exact inert_sign (by simp [ends])) (by simp [second]) ran'
  obtain ⟨rfl, rfl⟩ := argument_eq ran (by simp [second, ends]) run
  exact ⟨⟨line, rfl⟩, rfl⟩

theorem argument_name (isNested : IsNested nested) {arg : Option String × Expression}
    {s : String} {tokens : List Token}
    (ahead : cursor.ahead.map Lexeme.token = .name s :: .sign "," :: tokens)
    (run : (argument nested).run cursor = .ok (arg, cursor')) :
    (∃ line, arg = (none, word line s)) ∧ cursor' = passed cursor := by
  obtain ⟨first, behind⟩ := head?_eq ahead
  obtain ⟨second, -⟩ := head?_eq behind
  obtain ⟨e, reached, ran, -⟩ := ok_of_run_bind run
  obtain ⟨levels, ran'⟩ := isNested.eq_of_run ran
  have noNot : s ≠ "not" := by
    rintro rfl
    exact expressionWithin_not_stuck first second (by simp) ran'
  obtain ⟨⟨line, rfl⟩, rfl⟩ := expressionWithin_name first noNot
    (by rw [second]; exact inert_sign (by simp)) ran'
  obtain ⟨rfl, rfl⟩ := argument_eq ran (by simp [second]) run
  exact ⟨⟨line, rfl⟩, rfl⟩

theorem ite_eq {α : Type} {c : Prop} [Decidable c] {yes no : Parse α} {a : α}
    (run : (if c then yes else no).run cursor = .ok (a, cursor')) :
    c ∧ yes.run cursor = .ok (a, cursor') ∨ ¬ c ∧ no.run cursor = .ok (a, cursor') := by
  split at run
  · next holds => exact .inl ⟨holds, run⟩
  · next other => exact .inr ⟨other, run⟩

theorem else_eq {α : Type} {c : Prop} [Decidable c] {yes no : Parse α} {a : α} (h : Fails yes)
    (run : (if c then yes else no).run cursor = .ok (a, cursor')) :
    ¬ c ∧ no.run cursor = .ok (a, cursor') :=
  (ite_eq run).resolve_left fun first => not_ok_of_fails h first.2

theorem expectSign_eq {α : Type} {s : String} {next : Unit → Parse α} {a : α}
    (run : (expectSign s >>= next).run cursor = .ok (a, cursor')) :
    head? cursor = some (.sign s) ∧ (next ()).run (passed cursor) = .ok (a, cursor') := by
  obtain ⟨_, reached, ran, rest⟩ := ok_of_run_bind run
  obtain ⟨found, stop, skipped, last⟩ := ok_of_run_bind ran
  rcases run_skipSign skipped with ⟨rfl, ahead, rfl⟩ | ⟨rfl, -, rfl⟩
  · cases last
    exact ⟨ahead, rest⟩
  · exact absurd last (not_ok_of_fails fails_unexpected)

theorem argumentsUntil_step {steps count : Nat} {named : Bool}
    {args : List (Option String × Expression)} (open' : head? cursor ≠ some (.sign ")"))
    (run : (argumentsUntil nested (steps + 1) count named).run cursor = .ok (args, cursor')) :
    ∃ arg reached, (argument nested).run cursor = .ok (arg, reached) ∧
      ¬ (named = true ∧ arg.1 = none) ∧
      ((head? reached = some (.sign ",") ∧ ∃ rest, args = arg :: rest ∧
          (argumentsUntil nested steps (count + 1) arg.1.isSome).run (passed reached) =
            .ok (rest, cursor')) ∨
        (head? reached = some (.sign ")") ∧ args = [arg] ∧ cursor' = passed reached)) := by
  unfold argumentsUntil at run
  have started := eq_of_skipSign open' run
  obtain ⟨arg, reached, ran, rest⟩ := ok_of_run_bind started
  obtain ⟨ordered, fewer⟩ := else_eq (fails_bind fun _ => (fails_failAt _ _).bind _) rest
  obtain ⟨-, goesOn⟩ := else_eq (fails_bind fun _ => (fails_failAt _ _).bind _) fewer
  refine ⟨arg, reached, ran, by simpa using ordered, ?_⟩
  obtain ⟨found, stop, skipped, last⟩ := ok_of_run_bind goesOn
  rcases run_skipSign skipped with ⟨rfl, comma, rfl⟩ | ⟨rfl, -, rfl⟩
  · obtain ⟨others, atEnd, reading, done⟩ := ok_of_run_bind last
    cases done
    exact .inl ⟨comma, others, rfl, reading⟩
  · obtain ⟨close, done⟩ := expectSign_eq last
    cases done
    exact .inr ⟨close, rfl, rfl⟩

theorem brackets?_comma {tokens : List Token} (more : List Token)
    (level : Token.levels? 0 tokens = some 0) (last : tokens.getLast? = some (.sign ",")) :
    Token.brackets? [] (tokens ++ more) ≠ some [] := by
  intro matched
  obtain ⟨front, rfl⟩ := List.getLast?_eq_some_iff.mp last
  rw [List.append_assoc, Token.brackets?_append] at matched
  obtain ⟨pending, first, second⟩ := Option.bind_eq_some_iff.mp matched
  have depth : Token.levels? 0 front = some pending.length := Token.levels?_of_brackets? first
  rw [Token.levels?_append, depth] at level
  have closed : pending.length = 0 := Option.some.inj level
  rw [List.length_eq_zero_iff.mp closed] at second
  cases second

/-- Arguments whose last one is a literal, in front of which any text may stand. -/
theorem argumentsUntil_literal (hidden : String → Prop) (isNested : IsNested nested) {kind : String}
    {rest : List Token} {steps : Nat} {tokens : List Token}
    (level : Token.levels? 0 tokens = some 0)
    (separated : tokens = [] ∨ tokens.getLast? = some (.sign ",")) {count : Nat} {named : Bool}
    {args : List (Option String × Expression)}
    (ahead : cursor.ahead.map Lexeme.token = tokens ++ .literal kind :: .sign ")" :: rest)
    (run : (argumentsUntil nested steps count named).run cursor = .ok (args, cursor')) :
    named = false ∧ cursor'.ahead.map Lexeme.token = rest ∧
      ∃ sources line, args = sources.map (Prod.mk none) ++
        [(none, .constant line (.ofString kind))] ∧
        (tokens = [] → sources = []) ∧ (Token.Show hidden tokens → AllAvoid hidden sources) := by
  induction steps generalizing cursor tokens count named args with
  | zero => exact absurd run (not_ok_of_fails fails_unexpected)
  | succ steps ih =>
      cases tokens with
      | nil =>
          obtain ⟨first, behind⟩ := head?_eq ahead
          obtain ⟨second, afterwards⟩ := head?_eq behind
          obtain ⟨arg, reached, ran, ordered, ends⟩ :=
            argumentsUntil_step (by simp [first]) run
          obtain ⟨⟨line, rfl⟩, rfl⟩ := argument_literal isNested (by decide) ahead ran
          rcases ends with ⟨comma, -⟩ | ⟨-, rfl, rfl⟩
          · exact absurd comma (by simp [second])
          · exact ⟨by simpa using ordered, afterwards, [], line, rfl, fun _ =>
              rfl, fun _ => trivial⟩
      | cons token tokens =>
          have last : (token :: tokens).getLast? = some (.sign ",") :=
            separated.resolve_left (List.cons_ne_nil _ _)
          have first := (head?_eq ahead).1
          have noClose : head? cursor ≠ some (.sign ")") := by
            rw [first]
            rintro ⟨⟩
            cases level
          obtain ⟨arg, reached, ran, ordered, ends⟩ := argumentsUntil_step noClose run
          have reads : Reads hidden (argument nested) fun arg => arg.2.Avoids hidden :=
            argument_reads isNested.reads
          obtain ⟨taken, split, brackets, avoids⟩ := reads cursor arg reached ran
          have balanced : Token.levels? 0 taken = some 0 := Token.levels?_of_brackets? brackets
          -- the argument ends in front of the last comma
          obtain ⟨remaining, cut⟩ : ∃ remaining, token :: tokens = taken ++ remaining := by
            rcases List.append_eq_append_iff.mp (ahead.symm.trans split) with
              ⟨more, longer, -⟩ | ⟨remaining, cut, -⟩
            · exact absurd (longer ▸ brackets) (brackets?_comma more level last)
            · exact ⟨remaining, cut⟩
          rw [cut] at ahead level last
          rw [Token.levels?_append, balanced] at level
          have behind : reached.ahead.map Lexeme.token =
              remaining ++ .literal kind :: .sign ")" :: rest := by
            rw [ahead, List.append_assoc] at split
            exact (List.append_cancel_left split).symm
          cases remaining with
          | nil =>
              rw [List.append_nil] at last
              have whole := brackets?_comma [] balanced last
              rw [List.append_nil] at whole
              exact absurd brackets whole
          | cons next remaining =>
              obtain ⟨second, afterwards⟩ := head?_eq behind
              rcases ends with ⟨comma, others, rfl, reading⟩ | ⟨close, -⟩
              · cases second.symm.trans comma
                have lastBehind : remaining = [] ∨ remaining.getLast? = some (.sign ",") := by
                  cases remaining with
                  | nil => exact .inl rfl
                  | cons => exact .inr (by simpa using last)
                have levelBehind : Token.levels? 0 remaining = some 0 := level
                obtain ⟨unnamed, atEnd, sources, line, rfl, -, rest⟩ :=
                  ih levelBehind lastBehind afterwards reading
                have noName : arg.1 = none := by simpa using unnamed
                refine ⟨by simpa [noName] using ordered, atEnd, arg.2 :: sources, line, ?_, by
                  simp, ?_⟩
                · rw [List.map_cons, List.cons_append, ← noName]
                · intro shows
                  rw [cut] at shows
                  refine ⟨avoids fun s hs => shows s (List.mem_append_left _ hs),
                    rest fun s hs => ?_⟩
                  exact shows s (List.mem_append_right _ (List.mem_cons_of_mem _ hs))
              · cases second.symm.trans close
                cases level

/-- Arguments without names are given as they are, those with names as one map behind them. -/
theorem arguments_cases {line : Nat} {operands : List Expression}
    (run : (arguments nested line).run cursor = .ok (operands, cursor')) :
    ∃ n args, (argumentsUntil nested n 0 false).run cursor = .ok (args, cursor') ∧
      ((∀ arg ∈ args, arg.1 = none) ∧ operands = args.map Prod.snd ∨
        (args.filter fun arg => arg.1.isSome) ≠ [] ∧ ∃ entries,
          operands = (args.filter fun arg => arg.1.isNone).map Prod.snd ++ [entries]) := by
  obtain ⟨n, -, reading⟩ := look_eq looks_bound run
  obtain ⟨args, reached, ran, rest⟩ := ok_of_run_bind reading
  rcases ite_eq rest with ⟨none, done⟩ | ⟨some, done⟩
  · cases done
    have unnamed : ∀ arg ∈ args, arg.1 = Option.none := fun arg hmem => by
      simpa using List.filter_eq_nil_iff.mp (List.isEmpty_iff.mp none) arg hmem
    have all : (args.filter fun arg => arg.1.isNone) = args :=
      List.filter_eq_self.mpr fun arg hmem => by simp [unnamed arg hmem]
    exact ⟨n, args, ran, .inl ⟨unnamed, by rw [all]⟩⟩
  · cases done
    exact ⟨n, args, ran, .inr ⟨fun empty => some (by rw [empty]; rfl), _, rfl⟩⟩

/-- A name in front of a parenthesis calls a function, if it is not a word of the language. -/
theorem expressionWithin_arguments {levels : Nat} {function : String}
    (isWord : ∀ line, word line function = .named line function) (noNot : function ≠ "not")
    {tokens : List Token}
    (ahead : cursor.ahead.map Lexeme.token = .name function :: .sign "(" :: tokens)
    (run : (expressionWithin levels).run cursor = .ok (value, cursor')) :
    ∃ nested line operands start atEnd, IsNested nested ∧ start.ahead.map Lexeme.token = tokens ∧
      (arguments nested line).run start = .ok (operands, atEnd) ∧
      (Inert (head? atEnd) → (∃ line, value = .call line function operands) ∧ cursor' = atEnd) := by
  obtain ⟨first, behind⟩ := head?_eq ahead
  obtain ⟨second, inside⟩ := head?_eq behind
  obtain ⟨_, nested, line, n, base, reached, stepped, stop, -, isNested, operating,
    stepping, ends⟩ :=
    expressionWithin_operand (by simpa [first] using noNot) (by simp [first]) run
  obtain ⟨⟨nameLine, rfl⟩, rfl⟩ := operand_name first operating
  rw [isWord] at stepping
  have noPoint := eq_of_skipSign (by simp [second]) stepping
  have noElement := eq_of_skipSign (by simp [second]) noPoint
  have called := passed_of_skipSign second noElement
  obtain ⟨operands, atEnd, reading, rest⟩ := ok_of_run_bind called
  refine ⟨nested, line, operands, _, atEnd, isNested, inside, reading, fun inert => ?_⟩
  obtain ⟨rfl, rfl⟩ := steps_inert inert rest
  obtain ⟨rfl, rfl⟩ := ends inert
  exact ⟨⟨_, rfl⟩, rfl⟩

theorem expressionWithin_call {levels : Nat} {function : String}
    (isWord : ∀ line, word line function = .named line function) (noNot : function ≠ "not")
    {tokens : List Token}
    (ahead : cursor.ahead.map Lexeme.token = .name function :: .sign "(" :: tokens)
    (run : (expressionWithin levels).run cursor = .ok (value, cursor')) :
    ∃ nested n args start atEnd, IsNested nested ∧ start.ahead.map Lexeme.token = tokens ∧
      (argumentsUntil nested n 0 false).run start = .ok (args, atEnd) ∧
      ((∀ arg ∈ args, arg.1 = none) → Inert (head? atEnd) →
        (∃ line, value = .call line function (args.map Prod.snd)) ∧ cursor' = atEnd) := by
  obtain ⟨nested, line, operands, start, atEnd, isNested, inside, reading, ends⟩ :=
    expressionWithin_arguments isWord noNot ahead run
  obtain ⟨n, args, ran, ⟨-, rfl⟩ | ⟨named, -⟩⟩ := arguments_cases reading
  · exact ⟨nested, n, args, start, atEnd, isNested, inside, ran, fun _ => ends⟩
  · refine ⟨nested, n, args, start, atEnd, isNested, inside, ran, fun unnamed => absurd ?_ named⟩
    exact List.filter_eq_nil_iff.mpr fun arg hmem => by simp [unnamed arg hmem]

section

variable {levels : Nat} {function kind : String} {tokens rest : List Token} {stop : Token}
  (isWord : ∀ line, word line function = .named line function) (noNot : function ≠ "not")
  (inert : Inert (some stop))

include isWord noNot inert

theorem expressionWithin_literalCall (hidden : String → Prop)
    (level : Token.levels? 0 tokens = some 0)
    (separated : tokens = [] ∨ tokens.getLast? = some (.sign ","))
    (ahead : cursor.ahead.map Lexeme.token =
      .name function :: .sign "(" :: (tokens ++ .literal kind :: .sign ")" :: stop :: rest))
    (run : (expressionWithin levels).run cursor = .ok (value, cursor')) :
    cursor'.ahead.map Lexeme.token = stop :: rest ∧
      ∃ line sources kindLine,
        value = .call line function (sources ++ [.constant kindLine (.ofString kind)]) ∧
          (tokens = [] → sources = []) ∧ (Token.Show hidden tokens → AllAvoid hidden sources) := by
  obtain ⟨nested, n, args, start, atEnd, isNested, inside, ran, called⟩ :=
    expressionWithin_call isWord noNot ahead run
  obtain ⟨-, behind, sources, kindLine, rfl, alone, avoids⟩ :=
    argumentsUntil_literal hidden isNested level separated inside ran
  have noNames : ∀ arg ∈ sources.map (Prod.mk (none : Option String)) ++
      [(none, Expression.constant kindLine (.ofString kind))], arg.1 = none := by
    intro arg hmem
    rcases List.mem_append.mp hmem with hmem | hmem
    · obtain ⟨_, -, rfl⟩ := List.mem_map.mp hmem
      rfl
    · rw [List.mem_singleton.mp hmem]
  obtain ⟨⟨line, rfl⟩, rfl⟩ := called noNames (by rw [(head?_eq behind).1]; exact inert)
  exact ⟨behind, line, sources, kindLine, by simp, alone, avoids⟩

theorem expressionWithin_itemCall {item : String}
    (ahead : cursor.ahead.map Lexeme.token =
      .name function :: .sign "(" :: .name item :: .sign "," :: .literal kind :: .sign ")" ::
        stop :: rest)
    (run : (expressionWithin levels).run cursor = .ok (value, cursor')) :
    cursor'.ahead.map Lexeme.token = stop :: rest ∧
      ∃ line itemLine kindLine, value = .call line function
        [word itemLine item, .constant kindLine (.ofString kind)] := by
  obtain ⟨nested, n, args, start, atEnd, isNested, inside, ran, called⟩ :=
    expressionWithin_call isWord noNot ahead run
  cases n with
  | zero => exact absurd ran (not_ok_of_fails fails_unexpected)
  | succ n =>
      obtain ⟨first, afterItem⟩ := head?_eq inside
      obtain ⟨comma, atLiteral⟩ := head?_eq afterItem
      obtain ⟨arg, reached, reading, -, ends⟩ := argumentsUntil_step (by simp [first]) ran
      obtain ⟨⟨itemLine, rfl⟩, rfl⟩ := argument_name isNested inside reading
      rcases ends with ⟨-, others, rfl, readingOthers⟩ | ⟨close, -⟩
      · have noMore : (passed (passed start)).ahead.map Lexeme.token =
            [] ++ .literal kind :: .sign ")" :: stop :: rest := atLiteral
        obtain ⟨-, behind, sources, kindLine, rfl, alone, -⟩ :=
          argumentsUntil_literal (fun _ => False) isNested rfl (.inl rfl) noMore readingOthers
        rw [alone rfl] at called
        obtain ⟨⟨line, rfl⟩, rfl⟩ :=
          called (by simp) (by rw [(head?_eq behind).1]; exact inert)
        exact ⟨behind, line, itemLine, kindLine, rfl⟩
      · exact absurd close (by simp [comma])

end

end ThemeTemplates.Parse
