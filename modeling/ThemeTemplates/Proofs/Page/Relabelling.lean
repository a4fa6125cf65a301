import ThemeTemplates.Proofs.Page.Reading

/-!
# Expressions read elsewhere in a page

An expression in an echo that can be read is read alike when the echo stands on other lines and has
more behind it: what is read differs in its lines alone.
-/

namespace ThemeTemplates

namespace Expression

variable (f : Nat → Nat)

mutual
def relabel : Expression → Expression
  | constant line value => constant (f line) value
  | named line name => named (f line) name
  | list line items => list (f line) (relabelAll items)
  | map line entries => map (f line) (relabelEntries entries)
  | field base name => field base.relabel name
  | element base key => element base.relabel key.relabel
  | call line function args => call (f line) function (relabelAll args)
  | apply line base args => apply (f line) base.relabel (relabelAll args)
  | filter line base name args => filter (f line) base.relabel name (relabelAll args)
  | test line base name args => test (f line) base.relabel name (relabelAll args)
  | not operand => not operand.relabel
  | negate line operand => negate (f line) operand.relabel
  | equal first others => equal first.relabel (relabelAll others)
  | sum left right => sum left.relabel right.relabel
  | join left right => join left.relabel right.relabel

def relabelAll : List Expression → List Expression
  | [] => []
  | first :: rest => first.relabel :: relabelAll rest

def relabelEntries : List (Expression × Expression) → List (Expression × Expression)
  | [] => []
  | (key, value) :: rest => (key.relabel, value.relabel) :: relabelEntries rest
end

theorem relabelAll_eq (items : List Expression) : relabelAll f items = items.map (relabel f) := by
  induction items with
  | nil => rfl
  | cons first rest ih => simp only [relabelAll, ih, List.map_cons]

theorem relabelEntries_eq (entries : List (Expression × Expression)) :
    relabelEntries f entries = entries.map (Prod.map (relabel f) (relabel f)) := by
  induction entries with
  | nil => rfl
  | cons first rest ih => simp only [relabelEntries, ih, List.map_cons, Prod.map]

@[simp] theorem isLiteral_relabel (e : Expression) : (relabel f e).isLiteral = e.isLiteral := by
  cases e <;> rfl

mutual
theorem line_relabel (e : Expression) : (relabel f e).line = f e.line := by
  cases e with
  | negate line operand =>
      have inside := line_relabel operand
      cases operand <;> first | rfl | exact inside
  | field base | element _ base | not base | sum _ base | join _ base => exact line_relabel base
  | equal first others =>
      have inside := line_relabel first
      show lastLine (relabel f first).line (relabelAll f others) = f (lastLine first.line others)
      rw [inside]
      exact lastLine_relabel others first.line
  | _ => rfl

theorem lastLine_relabel (items : List Expression) (default : Nat) :
    lastLine (f default) (relabelAll f items) = f (lastLine default items) := by
  cases items with
  | nil => rfl
  | cons first rest =>
      have inside := line_relabel first
      show lastLine (relabel f first).line (relabelAll f rest) = f (lastLine first.line rest)
      rw [inside]
      exact lastLine_relabel rest first.line
end

theorem listFrom_relabel (line : Nat) (items : List Expression) :
    relabel f (listFrom line items) = listFrom (f line) (items.map (relabel f)) := by
  have literals : (items.map (relabel f)).all isLiteral = items.all isLiteral := by
    simp [List.all_map, Function.comp_def]
  unfold listFrom
  rw [literals, ← relabelAll_eq, lastLine_relabel, ← apply_ite f]
  rfl

theorem mapFrom_relabel (line : Nat) (entries : List (Expression × Expression)) :
    relabel f (mapFrom line entries) =
      mapFrom (f line) (entries.map (Prod.map (relabel f) (relabel f))) := by
  have values : (entries.map (Prod.map (relabel f) (relabel f))).map Prod.snd =
      relabelAll f (entries.map Prod.snd) := by
    simp [relabelAll_eq, Function.comp_def]
  unfold mapFrom
  simp only [values, lastLine_relabel, List.all_map, Function.comp_def, Prod.map_fst, Prod.map_snd,
    isLiteral_relabel, ← apply_ite f]
  rw [← relabelEntries_eq]
  rfl

end Expression

def Lexeme.relabel (f : Nat → Nat) (lexeme : Lexeme) : Lexeme :=
  { lexeme with line := f lexeme.line }

namespace Parse

variable {α β γ δ : Type} {f : Nat → Nat} {behind : List Lexeme}

/-- The second cursor has the tokens of the first ahead, up to the end of an echo, on other lines
and with more behind them. -/
structure Beside (f : Nat → Nat) (behind : List Lexeme) (cursor cursor' : Cursor) : Prop where
  ends : cursor.ahead.getLast?.map Lexeme.token = some .closeEcho
  ahead : cursor'.ahead = cursor.ahead.map (Lexeme.relabel f) ++ behind
  line : cursor'.line = f cursor.line

namespace Beside

variable {cursor cursor' : Cursor}

theorem exists_cons (h : Beside f behind cursor cursor') :
    ∃ lexeme ahead, cursor.ahead = lexeme :: ahead := by
  cases same : cursor.ahead with
  | nil =>
      have ends := h.ends
      rw [same] at ends
      cases ends
  | cons lexeme ahead => exact ⟨lexeme, ahead, rfl⟩

theorem head (h : Beside f behind cursor cursor') : head? cursor' = head? cursor := by
  obtain ⟨lexeme, ahead, same⟩ := h.exists_cons
  unfold head?
  rw [h.ahead, same]
  rfl

theorem passed (h : Beside f behind cursor cursor') {token : Token}
    (first : head? cursor = some token) (inner : token ≠ .closeEcho) :
      Beside f behind (Parse.passed cursor) (Parse.passed cursor') ∧
      (Parse.passed cursor).ahead.length < cursor.ahead.length := by
  obtain ⟨ahead, line, blocks⟩ := cursor
  obtain ⟨ahead', line', blocks'⟩ := cursor'
  obtain ⟨ends, rfl, -⟩ := h
  cases ahead with
  | nil => cases ends
  | cons lexeme rest =>
      refine ⟨⟨?_, rfl, rfl⟩, Nat.lt_succ_self _⟩
      cases rest with
      | nil =>
          have last : lexeme.token = .closeEcho := by simpa using ends
          have only : lexeme.token = token := by simpa [head?] using first
          exact absurd (only.symm.trans last) inner
      | cons second rest => simpa [Parse.passed] using ends

/-- Where one has nothing more behind the end of the echo, the other has what follows it. -/
theorem passed_ahead (h : Beside f behind cursor cursor')
    (last : (Parse.passed cursor).ahead = []) :
    (Parse.passed cursor').ahead = behind := by
  obtain ⟨lexeme, ahead, same⟩ := h.exists_cons
  have whole := h.ahead
  simp only [Parse.passed, same] at last
  rw [same, last] at whole
  simp [Parse.passed, whole]

end Beside

/-- From all cursors with less than `n` tokens ahead, what the first reader reads the second reads
too, up to a translation. -/
def Simulates (f : Nat → Nat) (behind : List Lexeme) (n : Nat) (first : Parse α) (second : Parse β)
    (translate : α → β) : Prop :=
  ∀ cursor cursor', cursor.ahead.length < n → Beside f behind cursor cursor' → ∀ a stop,
    first.run cursor = .ok (a, stop) → ∃ stop', second.run cursor' = .ok (translate a, stop') ∧
      Beside f behind stop stop' ∧ stop.ahead.length ≤ cursor.ahead.length

def SimulatesAt (f : Nat → Nat) (behind : List Lexeme) (head : Option Token) (n : Nat)
    (first : Parse α) (second : Parse β) (translate : α → β) : Prop :=
  ∀ cursor cursor', head? cursor = head → cursor.ahead.length < n → Beside f behind cursor cursor' →
    ∀ a stop, first.run cursor = .ok (a, stop) →
      ∃ stop', second.run cursor' = .ok (translate a, stop') ∧ Beside f behind stop stop' ∧
        stop.ahead.length ≤ cursor.ahead.length

namespace Simulates

variable {n : Nat} {translate : α → β}

theorem weaken {first : Parse α} {second : Parse β}
    (h : Simulates f behind n first second translate) {m : Nat} (fewer : m ≤ n) :
      Simulates f behind m first second translate :=
  fun cursor cursor' short => h cursor cursor' (Nat.lt_of_lt_of_le short fewer)

theorem known {first : Parse α} {second : Parse β} (h : Simulates f behind n first second translate)
    (head : Option Token) : SimulatesAt f behind head n first second translate :=
  fun cursor cursor' _ => h cursor cursor'

theorem pure {a : α} {b : β} (same : translate a = b) :
    Simulates f behind n (Pure.pure a) (Pure.pure b) translate := by
  intro cursor cursor' _ beside a' stop ran
  cases ran
  exact ⟨cursor', by rw [same]; rfl, beside, Nat.le_refl _⟩

theorem of_fails {first : Parse α} {second : Parse β} (h : Fails first) :
    Simulates f behind n first second translate := by
  intro cursor cursor' _ _ a stop ran
  obtain ⟨error, failed⟩ := h cursor
  rw [failed] at ran
  cases ran

theorem bind {first : Parse α} {second : Parse β} {next : α → Parse γ} {next' : β → Parse δ}
    {translate' : γ → δ} (h : Simulates f behind n first second translate)
    (hnext : ∀ a, Simulates f behind n (next a) (next' (translate a)) translate') :
    Simulates f behind n (first >>= next) (second >>= next') translate' := by
  intro cursor cursor' short beside c stop ran
  obtain ⟨a, middle, begun, rest⟩ := ok_of_run_bind ran
  obtain ⟨middle', begun', beside', fewer⟩ := h cursor cursor' short beside a middle begun
  obtain ⟨stop', rest', beside'', fewer'⟩ := hnext a middle middle' (by omega) beside' c stop rest
  refine ⟨stop', ?_, beside'', by omega⟩
  rw [run_bind_of_ok begun']
  exact rest'

theorem ite {c : Prop} [Decidable c] {yes no : Parse α} {yes' no' : Parse β}
    (hyes : c → Simulates f behind n yes yes' translate)
    (hno : ¬ c → Simulates f behind n no no' translate) :
    Simulates f behind n (if c then yes else no) (if c then yes' else no') translate := by
  by_cases h : c
  · rw [if_pos h, if_pos h]
    exact hyes h
  · rw [if_neg h, if_neg h]
    exact hno h

theorem peek {next : Option Token → Parse α} {next' : Option Token → Parse β}
    (h : ∀ head, SimulatesAt f behind head n (next head) (next' head) translate) :
    Simulates f behind n (Parse.peek >>= next) (Parse.peek >>= next') translate := by
  intro cursor cursor' short beside a stop ran
  obtain ⟨head, reached, looked, rest⟩ := ok_of_run_bind ran
  obtain ⟨rfl, rfl, noFlaw⟩ := run_peek looked
  obtain ⟨lexeme, ahead, same⟩ := beside.exists_cons
  have first : head? reached = some lexeme.token := by simp [head?, same]
  have looked' : Parse.peek.run cursor' = .ok (head? reached, cursor') := by
    rw [first]
    refine run_peek_of_head (beside.head.trans first) fun flaw isFlaw => noFlaw flaw ?_
    rw [first, isFlaw]
  rw [run_bind_of_ok looked']
  exact h (head? reached) reached cursor' rfl short beside a stop rest

theorem peekBehindLiteral {next : Option Token → Parse α} {next' : Option Token → Parse β}
    (h : ∀ head, SimulatesAt f behind head n (next head) (next' head) translate) :
    Simulates f behind n (Parse.peekBehindLiteral >>= next) (Parse.peekBehindLiteral >>= next')
      translate := by
  intro cursor cursor' short beside a stop ran
  obtain ⟨lexeme, ahead, same⟩ := beside.exists_cons
  have ahead' : cursor'.ahead = lexeme.relabel f :: (ahead.map (Lexeme.relabel f) ++ behind) := by
    rw [beside.ahead, same]
    rfl
  obtain ⟨token, line⟩ := lexeme
  obtain ⟨chars, cursorLine, blocks⟩ := cursor
  obtain ⟨chars', cursorLine', blocks'⟩ := cursor'
  subst same ahead'
  cases token
  case flaw => cases ran
  all_goals exact h _ _ _ rfl short beside a stop ran

theorem bound {next : Nat → Parse α} {next' : Nat → Parse β}
    (h : ∀ steps, Simulates f behind steps (next steps) (next' (steps + behind.length)) translate) :
    Simulates f behind n (Parse.bound >>= next) (Parse.bound >>= next') translate := by
  intro cursor cursor' short beside a stop ran
  obtain ⟨steps, reached, looked, rest⟩ := ok_of_run_bind ran
  cases looked
  have length : cursor'.ahead.length + 1 = cursor.ahead.length + 1 + behind.length := by
    rw [beside.ahead, List.length_append, List.length_map]
    omega
  have looked' : Parse.bound.run cursor' =
      .ok (cursor.ahead.length + 1 + behind.length, cursor') := by
    rw [← length]
    rfl
  rw [run_bind_of_ok looked']
  exact h _ cursor cursor' (Nat.lt_succ_self _) beside a stop rest

theorem nextLine {next : Nat → Parse α} {next' : Nat → Parse β}
    (h : ∀ line, Simulates f behind n (next line) (next' (f line)) translate) :
    Simulates f behind n (Parse.nextLine >>= next) (Parse.nextLine >>= next') translate := by
  intro cursor cursor' short beside a stop ran
  obtain ⟨line, reached, looked, rest⟩ := ok_of_run_bind ran
  cases looked
  obtain ⟨lexeme, ahead, same⟩ := beside.exists_cons
  have looked' : Parse.nextLine.run cursor' = .ok (f lexeme.line, cursor') := by
    have line' : (cursor'.ahead.head?.map Lexeme.line).getD cursor'.line = f lexeme.line := by
      rw [beside.ahead, same]
      rfl
    rw [← line']
    rfl
  rw [run_bind_of_ok looked']
  rw [same] at rest
  exact h lexeme.line cursor cursor' short beside a stop rest

end Simulates

namespace SimulatesAt

variable {n : Nat} {translate : α → β}

theorem discard {token : Token} {next : Unit → Parse α} {next' : Unit → Parse β}
    (inner : token ≠ .closeEcho)
    (h : ∀ m < n, Simulates f behind m (next ()) (next' ()) translate) :
    SimulatesAt f behind (some token) n (Functor.discard Parse.next >>= next)
      (Functor.discard Parse.next >>= next') translate := by
  intro cursor cursor' first short beside a stop ran
  obtain ⟨_, reached, passing, rest⟩ := ok_of_run_bind ran
  have noFlaw : ∀ flaw, token ≠ .flaw flaw := by
    rintro flaw rfl
    rw [run_discard_next] at passing
    cases looked : peek.run cursor with
    | error error =>
        rw [looked] at passing
        cases passing
    | ok found =>
        obtain ⟨-, same, noFlaw⟩ := run_peek looked
        exact noFlaw flaw (same.trans first)
  rw [run_discard_next_of_head first noFlaw] at passing
  cases passing
  obtain ⟨beside', fewer⟩ := beside.passed first inner
  obtain ⟨stop', rest', beside'', fewer'⟩ := h cursor.ahead.length short (Parse.passed cursor)
    (Parse.passed cursor') fewer beside' a stop rest
  refine ⟨stop', ?_, beside'', by omega⟩
  rw [run_bind_of_ok (run_discard_next_of_head (beside.head.trans first) noFlaw)]
  exact rest'

end SimulatesAt

namespace Simulates

variable {n : Nat} {translate : α → β}

theorem skip {p : Option Token → Bool} (inner : ∀ head, p head = true → head ≠ some .closeEcho)
    (present : p none = false) {next : Bool → Parse α} {next' : Bool → Parse β}
    (found : ∀ m < n, Simulates f behind m (next true) (next' true) translate)
    (missing : Simulates f behind n (next false) (next' false) translate) :
    Simulates f behind n
      ((do
        if p (← Parse.peek) then
          Functor.discard Parse.next
          return true
        return false : Parse Bool) >>= next)
      ((do
        if p (← Parse.peek) then
          Functor.discard Parse.next
          return true
        return false : Parse Bool) >>= next') translate := by
  rw [bind_assoc, bind_assoc]
  refine peek fun head => ?_
  cases kind : p head with
  | false => simpa [kind] using missing.known head
  | true =>
      cases head with
      | none =>
          rw [present] at kind
          cases kind
      | some token =>
          have isInner : token ≠ .closeEcho := fun same => inner _ kind (congrArg some same)
          simpa [kind] using SimulatesAt.discard isInner found

theorem skipSign {s : String} {next : Bool → Parse α} {next' : Bool → Parse β}
    (found : ∀ m < n, Simulates f behind m (next true) (next' true) translate)
    (missing : Simulates f behind n (next false) (next' false) translate) :
    Simulates f behind n (Parse.skipSign s >>= next) (Parse.skipSign s >>= next') translate := by
  refine skip (fun head kind => ?_) rfl found missing
  rw [isSign_iff.mp kind]
  simp

theorem skipName {s : String} {next : Bool → Parse α} {next' : Bool → Parse β}
    (found : ∀ m < n, Simulates f behind m (next true) (next' true) translate)
    (missing : Simulates f behind n (next false) (next' false) translate) :
    Simulates f behind n (Parse.skipName s >>= next) (Parse.skipName s >>= next') translate := by
  refine skip (fun head kind => ?_) rfl found missing
  rw [isName_iff.mp kind]
  simp

theorem expectSign (s : String) :
    Simulates f behind n (Parse.expectSign s) (Parse.expectSign s) id := by
  refine skipSign (fun m _ => ?_) (of_fails fails_unexpected)
  exact pure rfl

theorem expectName : Simulates f behind n Parse.expectName Parse.expectName id := by
  refine peek fun head => ?_
  split
  · exact SimulatesAt.discard (by simp) fun m _ => pure rfl
  · exact (of_fails fails_unexpected).known _

end Simulates

/-- What is read of an expression or a part of one is read alike on other lines. -/
def Parallel (f : Nat → Nat) (behind : List Lexeme) (first : Parse α) (second : Parse β)
    (translate : α → β) : Prop :=
  ∀ n, Simulates f behind n first second translate

section

variable {item item' : Parse α} {part part' nested nested' : Parse Expression} {translate : α → α}

open Expression

theorem itemsUntil_simulates (close : String) (h : Parallel f behind item item' translate)
    (n : Nat) : Simulates f behind n (itemsUntil close item n)
      (itemsUntil close item' (n + behind.length)) (List.map translate) := by
  induction n with
  | zero => exact .of_fails fails_unexpected
  | succ n ih =>
      rw [Nat.succ_add]
      unfold itemsUntil
      refine .skipSign (fun m _ => .pure rfl) ?_
      refine .bind (h _) fun first => ?_
      refine .skipSign (fun m fewer => ?_) ?_
      · refine .bind (ih.weaken (Nat.le_of_lt_succ fewer)) fun rest => ?_
        exact .pure rfl
      · exact .bind (.expectSign close) fun _ => .pure rfl

theorem items_parallel (close : String) (h : Parallel f behind item item' translate) :
    Parallel f behind (items close item) (items close item') (List.map translate) :=
  fun _ => .bound fun steps => itemsUntil_simulates close h steps

theorem adjacentLiterals_simulates (n : Nat) :
    Simulates f behind n (adjacentLiterals n) (adjacentLiterals (n + behind.length)) id := by
  induction n with
  | zero => exact fun _ _ short => absurd short (Nat.not_lt_zero _)
  | succ n ih =>
      rw [Nat.succ_add]
      unfold adjacentLiterals
      refine .peekBehindLiteral fun head => ?_
      split
      · refine .discard (by simp) fun m fewer => ?_
        exact .bind (ih.weaken (Nat.le_of_lt_succ fewer)) fun rest => .pure rfl
      · have ends : Simulates f behind (n + 1) (pure "") (pure "") (id : String → String) :=
          .pure rfl
        exact ends.known _

theorem relabel_word (line : Nat) (s : String) : relabel f (word line s) = word (f line) s := by
  unfold word
  split <;> rfl

theorem entry_parallel (h : Parallel f behind nested nested' (relabel f)) :
    Parallel f behind (entry nested) (entry nested') (Prod.map (relabel f) (relabel f)) := by
  refine fun n => .bind (h n) fun key => ?_
  refine .bind (.expectSign ":") fun _ => ?_
  exact .bind (h n) fun value => .pure rfl

theorem parenthesized_parallel (line : Nat) (h : Parallel f behind nested nested' (relabel f)) :
    Parallel f behind (parenthesized line nested) (parenthesized (f line) nested') (relabel f) := by
  refine fun n => .skipSign (fun m _ => .pure (listFrom_relabel f line [])) ?_
  refine .bind (h n) fun first => ?_
  refine .skipSign (fun m _ => ?_) ?_
  · refine .bind (items_parallel ")" h m) fun rest => .pure ?_
    exact listFrom_relabel f line (first :: rest)
  · exact .bind (.expectSign ")") fun _ => .pure rfl

theorem operand_parallel (h : Parallel f behind nested nested' (relabel f)) :
    Parallel f behind (operand nested) (operand nested') (relabel f) := by
  refine fun n => .nextLine fun line => .peek fun head => ?_
  split
  · exact .discard (by simp) fun m _ => .pure (relabel_word line _)
  · refine .discard (by simp) fun m _ => .bound fun steps => ?_
    exact .bind (adjacentLiterals_simulates steps) fun _ => .pure rfl
  · exact .discard (by simp) fun m _ => .pure rfl
  · exact .discard (by simp) fun m _ => parenthesized_parallel line h m
  · refine .discard (by simp) fun m _ => ?_
    exact .bind (items_parallel "]" h m) fun items => .pure (listFrom_relabel f line items)
  · refine .discard (by simp) fun m _ => ?_
    refine .bind (items_parallel "\x7d" (entry_parallel h) m) fun entries => .pure ?_
    exact mapFrom_relabel f line entries
  · exact (Simulates.of_fails fails_unexpected).known _

theorem signed_simulates {parts parts' : Parts}
    (h : Parallel f behind parts.operand parts'.operand (relabel f)) (n m : Nat) :
    Simulates f behind m (signed parts n) (signed parts' (n + behind.length)) (relabel f) := by
  induction n generalizing m with
  | zero => exact .of_fails fails_unexpected
  | succ n ih =>
      rw [Nat.succ_add]
      refine .nextLine fun line => .skipSign (fun k _ => ?_) (h m)
      exact .bind (ih k) fun operand => .pure rfl

theorem argument_parallel (h : Parallel f behind nested nested' (relabel f)) :
    Parallel f behind (argument nested) (argument nested') (Prod.map id (relabel f)) := by
  refine fun n => .bind (h n) fun first => ?_
  cases first with
  | named line name =>
      refine .skipSign (fun m _ => ?_) (.pure rfl)
      exact .bind (h m) fun value => .pure rfl
  | _ => exact .pure rfl

theorem argumentsUntil_simulates (h : Parallel f behind nested nested' (relabel f))
    (n count : Nat) (named : Bool) :
    Simulates f behind n (argumentsUntil nested n count named)
      (argumentsUntil nested' (n + behind.length) count named)
      (List.map (Prod.map id (relabel f))) := by
  induction n generalizing count named with
  | zero => exact .of_fails fails_unexpected
  | succ n ih =>
      rw [Nat.succ_add]
      unfold argumentsUntil
      refine .skipSign (fun m _ => .pure rfl) ?_
      refine .bind (argument_parallel h _) fun first => ?_
      refine .ite (fun _ => ?_) fun _ => .ite (fun _ => ?_) fun _ => ?_
      · exact .of_fails (fails_bind fun _ => (fails_failAt _ _).bind _)
      · exact .of_fails (fails_bind fun _ => (fails_failAt _ _).bind _)
      · refine .skipSign (fun m fewer => ?_) ?_
        · refine .bind ((ih _ _).weaken (Nat.le_of_lt_succ fewer)) fun rest => .pure rfl
        · exact .bind (.expectSign ")") fun _ => .pure rfl

theorem lastLine_map (line : Nat) (args : List Expression) :
    lastLine (f line) (args.map (relabel f)) = f (lastLine line args) := by
  rw [← relabelAll_eq, lastLine_relabel]

theorem relabel_named (line : Nat) (positional : List Expression)
    (named : List (Option String × Expression)) :
    relabel f (map (lastLine line (if (named.map Prod.snd).all isLiteral then positional
        else positional ++ named.map Prod.snd))
      (named.map fun arg => (constant arg.2.line (.ofString (arg.1.getD "")), arg.2))) =
    map (lastLine (f line) (if ((named.map (Prod.map id (relabel f))).map Prod.snd).all isLiteral
        then positional.map (relabel f)
        else positional.map (relabel f) ++ (named.map (Prod.map id (relabel f))).map Prod.snd))
      ((named.map (Prod.map id (relabel f))).map fun arg =>
        (constant arg.2.line (.ofString (arg.1.getD "")), arg.2)) := by
  have values : (named.map (Prod.map id (relabel f))).map Prod.snd =
      (named.map Prod.snd).map (relabel f) := by
    simp
  have literals : ((named.map Prod.snd).map (relabel f)).all isLiteral =
      (named.map Prod.snd).all isLiteral := by
    simp [List.all_map, Function.comp_def]
  have entries : (named.map fun arg => (constant arg.2.line (.ofString (arg.1.getD "")), arg.2)).map
      (Prod.map (relabel f) (relabel f)) = (named.map (Prod.map id (relabel f))).map fun arg =>
        (constant arg.2.line (.ofString (arg.1.getD "")), arg.2) := by
    simp [Function.comp_def, relabel, line_relabel]
  rw [values, literals, ← List.map_append, ← apply_ite (List.map (relabel f)), lastLine_map,
    ← entries, ← relabelEntries_eq]
  rfl

theorem arguments_parallel (h : Parallel f behind nested nested' (relabel f)) (line : Nat) :
    Parallel f behind (arguments nested line) (arguments nested' (f line))
      (List.map (relabel f)) := by
  refine fun n => .bound fun steps => ?_
  refine .bind (argumentsUntil_simulates h steps 0 false) fun args => ?_
  have split : ∀ p : Option String → Bool,
      (args.map (Prod.map id (relabel f))).filter (fun arg => p arg.1) =
        (args.filter fun arg => p arg.1).map (Prod.map id (relabel f)) := by
    intro p
    simp [List.filter_map, Function.comp_def]
  have values : ∀ some : List (Option String × Expression),
      (some.map (Prod.map id (relabel f))).map Prod.snd = (some.map Prod.snd).map (relabel f) := by
    simp
  simp only [split, List.isEmpty_map]
  refine .ite (fun _ => .pure (values _).symm) fun _ => .pure ?_
  rw [List.map_append, List.map_singleton, relabel_named]
  simp only [values]

theorem member_parallel (base : Expression) :
    Parallel f behind (member base) (member (relabel f base)) (relabel f) := by
  refine fun n => .nextLine fun line => .peek fun head => ?_
  split
  · exact .discard (by simp) fun m _ => .pure rfl
  · exact .discard (by simp) fun m _ => .pure rfl
  · exact (Simulates.of_fails fails_unexpected).known _

theorem steps_simulates (h : Parallel f behind nested nested' (relabel f)) (line n : Nat)
    (base : Expression) : Simulates f behind n (steps nested line n base)
      (steps nested' (f line) (n + behind.length) (relabel f base)) (relabel f) := by
  induction n generalizing base with
  | zero => exact fun _ _ short => absurd short (Nat.not_lt_zero _)
  | succ n ih =>
      rw [Nat.succ_add]
      unfold steps
      refine .skipSign (fun m fewer => ?_) (.skipSign (fun m fewer => ?_)
        (.skipSign (fun m fewer => ?_) (.pure rfl)))
      · refine .bind (member_parallel base m) fun e => ?_
        exact (ih e).weaken (Nat.le_of_lt_succ fewer)
      · refine .bind (h m) fun key => .bind (.expectSign "]") fun _ => ?_
        exact (ih (.element base key)).weaken (Nat.le_of_lt_succ fewer)
      · simp only [if_true]
        split
        · next base name =>
            refine .bind (arguments_parallel h line m) fun args => ?_
            rw [lastLine_map, ← relabelAll_eq]
            exact (ih (.call _ name args)).weaken (Nat.le_of_lt_succ fewer)
        · next other =>
            split
            · next same =>
                cases base <;> cases same
                exact absurd rfl (other _ _)
            · rw [line_relabel]
              refine .bind (arguments_parallel h base.line m) fun args => ?_
              rw [lastLine_map, ← relabelAll_eq]
              exact (ih (.apply _ base args)).weaken (Nat.le_of_lt_succ fewer)

theorem argumentsIfAny_parallel (h : Parallel f behind nested nested' (relabel f)) (line : Nat) :
    Parallel f behind (argumentsIfAny nested line) (argumentsIfAny nested' (f line))
      (List.map (relabel f)) :=
  fun _ => .skipSign (fun m _ => arguments_parallel h line m) (.pure rfl)

section

variable {parts parts' : Parts}
    (hoperand : Parallel f behind parts.operand parts'.operand (relabel f))
  (hnested : Parallel f behind parts.nested parts'.nested (relabel f))

include hoperand hnested

theorem signedSteps_parallel :
    Parallel f behind (signedSteps parts) (signedSteps parts') (relabel f) := by
  refine fun n => .nextLine fun line => .bound fun steps => ?_
  exact .bind (signed_simulates hoperand steps steps) fun base =>
    steps_simulates hnested line steps base

theorem bareArgument_parallel :
    Parallel f behind (bareArgument parts) (bareArgument parts') (List.map (relabel f)) := by
  refine fun n => .peek fun head => ?_
  have one : Simulates f behind n
      (do return [← signedSteps parts]) (do return [← signedSteps parts'])
      (List.map (relabel f)) := .bind (signedSteps_parallel hoperand hnested n) fun _ => .pure rfl
  have none : Simulates f behind n (pure []) (pure []) (List.map (relabel f)) := .pure rfl
  exact Simulates.known (.ite (fun _ => one) fun _ => none) head

theorem filters_simulates (n : Nat) (base : Expression) :
    Simulates f behind n (filters parts n base)
      (filters parts' (n + behind.length) (relabel f base))
      (relabel f) := by
  induction n generalizing base with
  | zero => exact fun _ _ short => absurd short (Nat.not_lt_zero _)
  | succ n ih =>
      rw [Nat.succ_add]
      unfold filters
      refine .skipSign (fun m fewer => ?_) (.skipName (fun m fewer => ?_) (.pure rfl))
      · refine .bind .expectName fun name => ?_
        rw [line_relabel]
        refine .bind (argumentsIfAny_parallel hnested base.line m) fun args => ?_
        rw [lastLine_map, ← relabelAll_eq]
        exact (ih (.filter _ base name args)).weaken (Nat.le_of_lt_succ fewer)
      · have tested : ∀ (k : Nat) (negated : Bool) (name : String) (args : List Expression), k ≤ m →
            Simulates f behind k
              (filters parts n (if negated then .not
                (.test (lastLine base.line args) base name args)
                else .test (lastLine base.line args) base name args))
              (filters parts' (n + behind.length) (if negated
                then .not (.test (lastLine (f base.line) (args.map (relabel f)))
                  (relabel f base) name
                  (args.map (relabel f)))
                else .test (lastLine (f base.line) (args.map (relabel f))) (relabel f base) name
                  (args.map (relabel f)))) (relabel f) := by
          intro k negated name args within
          rw [lastLine_map, ← relabelAll_eq]
          cases negated with
          | false => exact (ih (.test _ base name args)).weaken (by omega)
          | true => exact (ih (.not (.test _ base name args))).weaken (by omega)
        refine .skipName (fun k within => ?_) ?_
        all_goals
          refine .bind .expectName fun name => .peek fun head => ?_
          refine Simulates.known (.ite (fun _ => ?_) fun _ => ?_) head
        · rw [line_relabel]
          exact .bind (argumentsIfAny_parallel hnested base.line k) fun args =>
            tested k true name args (Nat.le_of_lt within)
        · rw [line_relabel]
          exact .bind (bareArgument_parallel hoperand hnested k) fun args =>
            tested k true name args (Nat.le_of_lt within)
        · rw [line_relabel]
          exact .bind (argumentsIfAny_parallel hnested base.line m) fun args =>
            tested m false name args (Nat.le_refl m)
        · rw [line_relabel]
          exact .bind (bareArgument_parallel hoperand hnested m) fun args =>
            tested m false name args (Nat.le_refl m)

theorem factor_parallel : Parallel f behind (factor parts) (factor parts') (relabel f) := by
  refine fun n => .bound fun steps => ?_
  exact .bind (signedSteps_parallel hoperand hnested steps) fun base =>
    filters_simulates hoperand hnested steps base

end

theorem joined_simulates (sign : String) (h : Parallel f behind part part' (relabel f)) (n : Nat) :
    Simulates f behind n (joined sign part n) (joined sign part' (n + behind.length))
      (List.map (relabel f)) := by
  induction n with
  | zero => exact fun _ _ short => absurd short (Nat.not_lt_zero _)
  | succ n ih =>
      rw [Nat.succ_add]
      unfold joined
      refine .skipSign (fun m fewer => ?_) (.pure rfl)
      refine .bind (h m) fun operand => ?_
      exact .bind (ih.weaken (Nat.le_of_lt_succ fewer)) fun rest => .pure rfl

theorem chain_parallel (sign : String) {combine : Expression → Expression → Expression}
    (combines : ∀ left right, relabel f (combine left right) =
      combine (relabel f left) (relabel f right))
    (h : Parallel f behind part part' (relabel f)) :
    Parallel f behind (chain sign combine part) (chain sign combine part') (relabel f) := by
  refine fun n => .bind (h n) fun first => .bound fun steps => ?_
  refine .bind (joined_simulates sign h steps) fun operands => .pure ?_
  induction operands generalizing first with
  | nil => rfl
  | cons operand rest ih =>
      rw [List.map_cons, List.foldl_cons, List.foldl_cons, ih, combines]

theorem comparison_parallel (h : Parallel f behind part part' (relabel f)) :
    Parallel f behind (comparison part) (comparison part') (relabel f) := by
  refine fun n => .bind (h n) fun first => .bound fun steps => ?_
  refine .bind (joined_simulates "==" h steps) fun operands => ?_
  cases operands with
  | nil => exact .pure rfl
  | cons second rest =>
      refine .pure ?_
      rw [relabel, relabelAll_eq]

theorem negation_simulates {parts parts' : Parts}
    (hoperand : Parallel f behind parts.operand parts'.operand (relabel f))
    (hnested : Parallel f behind parts.nested parts'.nested (relabel f)) (n m : Nat) :
    Simulates f behind m (negation parts n) (negation parts' (n + behind.length)) (relabel f) := by
  induction n generalizing m with
  | zero => exact .of_fails fails_unexpected
  | succ n ih =>
      rw [Nat.succ_add]
      refine .skipName (fun k _ => ?_) ?_
      · exact .bind (ih k) fun operand => .pure rfl
      · have joins := chain_parallel "~" (fun left right => rfl : ∀ left right,
          relabel f (.join left right) = .join (relabel f left) (relabel f right))
          (factor_parallel hoperand hnested)
        have sums := chain_parallel "+" (fun left right => rfl : ∀ left right,
          relabel f (.sum left right) = .sum (relabel f left) (relabel f right)) joins
        exact comparison_parallel sums m

theorem expressionWithin_parallel (levels : Nat) :
    Parallel f behind (expressionWithin levels) (expressionWithin levels) (relabel f) := by
  induction levels using expressionWithin.induct with
  | case1 =>
      have deep : Parallel f behind (tooDeep : Parse Expression) tooDeep (relabel f) :=
        fun _ => .of_fails fails_tooDeep
      exact fun n => .bound fun steps => negation_simulates deep deep steps steps
  | case2 ih =>
      have deep : Parallel f behind (tooDeep : Parse Expression) tooDeep (relabel f) :=
        fun _ => .of_fails fails_tooDeep
      exact fun n => .bound fun steps => negation_simulates (operand_parallel deep) ih steps steps
  | case3 levels ih ih' =>
      exact fun n => .bound fun steps => negation_simulates (operand_parallel ih) ih' steps steps

end

end Parse

end ThemeTemplates
