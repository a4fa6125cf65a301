import ThemeTemplates.Page.Parser
import ThemeTemplates.Proofs.Page.Avoidance
import ThemeTemplates.Proofs.Page.Lexing

/-!
# What the reader of expressions takes

An expression takes tokens whose brackets match and among which no comma stands outside brackets,
and it names nothing that is not named by these tokens.
-/

namespace ThemeTemplates

namespace Token

/-- The closing brackets still to come after one more token of an expression, innermost first. None
if a bracket does not match, if a comma stands outside brackets, or if the token belongs to no
expression. -/
def bracket? (pending : List String) : Token → Option (List String)
  | sign s =>
    if s = "(" then some (")" :: pending)
    else if s = "[" then some ("]" :: pending)
    else if s = "\x7b" then some ("\x7d" :: pending)
    else if isClosingSign s then
      match pending with
      | close :: rest => if s = close then some rest else none
      | [] => none
    else if s = "," then if pending.isEmpty then none else some pending
    else some pending
  | name _ | literal _ | number _ => some pending
  | _ => none

def brackets? (pending : List String) : List Token → Option (List String)
  | [] => some pending
  | token :: rest => (token.bracket? pending).bind fun pending => brackets? pending rest

theorem brackets?_append (pending : List String) (first second : List Token) :
    brackets? pending (first ++ second) =
      (brackets? pending first).bind fun pending => brackets? pending second := by
  induction first generalizing pending with
  | nil => rfl
  | cons token rest ih =>
      simp only [List.cons_append, brackets?, Option.bind_assoc]
      congr
      funext pending
      exact ih pending

theorem bracket?_under {pending after : List String} {token : Token}
    (h : token.bracket? pending = some after) (outer : List String) :
    token.bracket? (pending ++ outer) = some (after ++ outer) := by
  cases token with
  | sign s =>
      simp only [bracket?] at h ⊢
      cases pending <;> grind
  | name | literal | number =>
      cases h
      rfl
  | _ => cases h

theorem brackets?_under {pending after : List String} {tokens : List Token}
    (h : brackets? pending tokens = some after) (outer : List String) :
    brackets? (pending ++ outer) tokens = some (after ++ outer) := by
  induction tokens generalizing pending with
  | nil =>
      cases h
      rfl
  | cons token rest ih =>
      obtain ⟨between, first, second⟩ := Option.bind_eq_some_iff.mp h
      simp only [brackets?, bracket?_under first outer, Option.bind_some]
      exact ih second

theorem level?_of_bracket? {pending after : List String} {token : Token}
    (h : token.bracket? pending = some after) :
    token.level? pending.length = some after.length := by
  cases token with
  | sign s =>
      simp only [bracket?] at h
      simp only [level?, isOpeningSign, isClosingSign] at h ⊢
      cases pending <;> grind
  | name | literal | number =>
      cases h
      rfl
  | _ => cases h

theorem levels?_of_brackets? {pending after : List String} {tokens : List Token}
    (h : brackets? pending tokens = some after) :
    levels? pending.length tokens = some after.length := by
  induction tokens generalizing pending with
  | nil =>
      cases h
      rfl
  | cons token rest ih =>
      obtain ⟨between, first, second⟩ := Option.bind_eq_some_iff.mp h
      simp only [levels?, level?_of_bracket? first, Option.bind_some]
      exact ih second

def Show (hidden : String → Prop) (tokens : List Token) : Prop :=
  ∀ s, name s ∈ tokens → ¬ hidden s

end Token

namespace Parse

variable {α β : Type}

theorem run_bind (first : Parse α) (next : α → Parse β) (cursor : Cursor) :
    (first >>= next).run cursor =
      match first.run cursor with
      | .ok (value, cursor) => (next value).run cursor
      | .error error => .error error := by
  show Except.bind (first cursor) _ = _
  unfold StateT.run
  cases first cursor <;> rfl

theorem run_bind_of_ok {first : Parse α} {cursor cursor' : Cursor} {value : α}
    (h : first.run cursor = .ok (value, cursor')) (next : α → Parse β) :
    (first >>= next).run cursor = (next value).run cursor' := by
  rw [run_bind, h]

theorem run_bind_of_error {first : Parse α} {cursor : Cursor} {error : PageError}
    (h : first.run cursor = .error error) (next : α → Parse β) :
    (first >>= next).run cursor = .error error := by
  rw [run_bind, h]

theorem ok_of_run_bind {first : Parse α} {next : α → Parse β} {cursor cursor' : Cursor} {b : β}
    (h : (first >>= next).run cursor = .ok (b, cursor')) :
    ∃ a between, first.run cursor = .ok (a, between) ∧ (next a).run between = .ok (b, cursor') := by
  rw [run_bind] at h
  cases ran : first.run cursor with
  | error error =>
      rw [ran] at h
      cases h
  | ok reached =>
      rw [ran] at h
      exact ⟨reached.1, reached.2, rfl, h⟩

def head? (cursor : Cursor) : Option Token :=
  cursor.ahead.head?.map Lexeme.token

def passed (cursor : Cursor) : Cursor :=
  match cursor.ahead with
  | [] => cursor
  | lexeme :: ahead => { cursor with ahead, line := lexeme.line }

theorem run_peek {cursor cursor' : Cursor} {head : Option Token}
    (h : peek.run cursor = .ok (head, cursor')) :
    cursor' = cursor ∧ head = head? cursor ∧ ∀ flaw, head ≠ some (.flaw flaw) := by
  obtain ⟨ahead, line, blocks⟩ := cursor
  cases ahead with
  | nil =>
      cases h
      exact ⟨rfl, rfl, fun _ => by simp⟩
  | cons lexeme ahead =>
      obtain ⟨token, line⟩ := lexeme
      cases token
      case flaw => cases h
      all_goals
        cases h
        exact ⟨rfl, rfl, fun _ => by simp⟩

theorem run_peek_of_head {cursor : Cursor} {token : Token} (h : head? cursor = some token)
    (noFlaw : ∀ flaw, token ≠ .flaw flaw) : peek.run cursor = .ok (some token, cursor) := by
  obtain ⟨ahead, line, blocks⟩ := cursor
  cases ahead with
  | nil => cases h
  | cons lexeme ahead =>
      cases h
      obtain ⟨token, line⟩ := lexeme
      cases token
      case flaw flaw => exact absurd rfl (noFlaw flaw)
      all_goals rfl

theorem run_next (cursor : Cursor) :
    next.run cursor =
      match peek.run cursor with
      | .ok (head, cursor) => .ok (head, passed cursor)
      | .error error => .error error := by
  show Except.bind (peek cursor) _ = _
  unfold StateT.run
  cases peek cursor <;> rfl

theorem run_discard_next (cursor : Cursor) :
    (discard next).run cursor =
      match peek.run cursor with
      | .ok (_, cursor) => .ok ((), passed cursor)
      | .error error => .error error := by
  have passing := run_next cursor
  show Except.bind (next cursor) _ = _
  unfold StateT.run at passing ⊢
  rw [passing]
  cases peek cursor <;> rfl

theorem run_discard_next_of_head {cursor : Cursor} {token : Token} (h : head? cursor = some token)
    (noFlaw : ∀ flaw, token ≠ .flaw flaw) :
    (discard next).run cursor = .ok ((), passed cursor) := by
  rw [run_discard_next, run_peek_of_head h noFlaw]

theorem ahead_of_head {cursor : Cursor} {token : Token} (h : head? cursor = some token) :
    cursor.ahead.map Lexeme.token = token :: (passed cursor).ahead.map Lexeme.token := by
  obtain ⟨ahead, line, blocks⟩ := cursor
  cases ahead with
  | nil => cases h
  | cons lexeme ahead =>
      cases h
      rfl

def Fails (parse : Parse α) : Prop :=
  ∀ cursor, ∃ error, parse.run cursor = .error error

theorem fails_failAt (line : Nat) (reason : String) : Fails (failAt line reason : Parse α) :=
  fun _ => ⟨_, rfl⟩

theorem Fails.bind {first : Parse α} (h : Fails first) (next : α → Parse β) :
    Fails (first >>= next) := by
  intro cursor
  obtain ⟨error, failed⟩ := h cursor
  exact ⟨error, run_bind_of_error failed next⟩

theorem fails_bind {first : Parse α} {next : α → Parse β} (h : ∀ value, Fails (next value)) :
    Fails (first >>= next) := by
  intro cursor
  rw [run_bind]
  cases first.run cursor with
  | error error => exact ⟨error, rfl⟩
  | ok reached => exact h reached.1 reached.2

theorem fails_tooDeep : Fails (tooDeep : Parse α) :=
  fun _ => ⟨_, rfl⟩

theorem fails_unexpected : Fails (unexpected : Parse α) := by
  refine fails_bind fun head => ?_
  cases head <;> exact fails_bind fun _ => fails_failAt _ _

variable {hidden : String → Prop} {pending between after : List String}

/-- What a reader does from a cursor on if it succeeds: it takes tokens that lead from some pending
brackets to others and, given that none of them is a hidden name, gives a result with a property. -/
def TakesFrom (hidden : String → Prop) (pending after : List String) (parse : Parse α)
    (result : α → Prop) (cursor : Cursor) : Prop :=
  ∀ value cursor', parse.run cursor = .ok (value, cursor') →
    ∃ taken, cursor.ahead.map Lexeme.token = taken ++ cursor'.ahead.map Lexeme.token ∧
      Token.brackets? pending taken = some after ∧ (Token.Show hidden taken → result value)

def Takes (hidden : String → Prop) (pending after : List String) (parse : Parse α)
    (result : α → Prop) : Prop :=
  ∀ cursor, TakesFrom hidden pending after parse result cursor

theorem Takes.pure {value : α} {result : α → Prop} (h : result value) :
    Takes hidden pending pending (Pure.pure value) result := by
  intro cursor value' cursor' run
  cases run
  exact ⟨[], rfl, rfl, fun _ => h⟩

theorem Takes.ite {c : Prop} [Decidable c] {yes no : Parse α} {result : α → Prop}
    (hyes : c → Takes hidden pending after yes result)
    (hno : ¬ c → Takes hidden pending after no result) :
    Takes hidden pending after (if c then yes else no) result := by
  split
  · next h => exact hyes h
  · next h => exact hno h

theorem Fails.takes {parse : Parse α} (h : Fails parse) {result : α → Prop} :
    Takes hidden pending after parse result := by
  intro cursor value cursor' run
  obtain ⟨error, failed⟩ := h cursor
  rw [failed] at run
  cases run

theorem Takes.weaken {parse : Parse α} {result result' : α → Prop}
    (h : Takes hidden pending after parse result) (weaker : ∀ a, result a → result' a) :
    Takes hidden pending after parse result' := by
  intro cursor value cursor' run
  obtain ⟨taken, ahead, brackets, holds⟩ := h cursor value cursor' run
  exact ⟨taken, ahead, brackets, fun shows => weaker _ (holds shows)⟩

theorem Takes.under {parse : Parse α} {result : α → Prop}
    (h : Takes hidden pending after parse result) (outer : List String) :
    Takes hidden (pending ++ outer) (after ++ outer) parse result := by
  intro cursor value cursor' run
  obtain ⟨taken, ahead, brackets, holds⟩ := h cursor value cursor' run
  exact ⟨taken, ahead, Token.brackets?_under brackets outer, holds⟩

theorem Takes.bind {first : Parse α} {next : α → Parse β} (middle : α → Prop) {result : β → Prop}
    (h : Takes hidden pending between first middle)
    (hnext : ∀ value, Takes hidden between after (next value) fun b => middle value → result b) :
    Takes hidden pending after (first >>= next) result := by
  intro cursor value cursor' run
  obtain ⟨a, reached, ran, rest⟩ := ok_of_run_bind run
  obtain ⟨taken, ahead, brackets, holds⟩ := h cursor a reached ran
  obtain ⟨taken', ahead', brackets', holds'⟩ := hnext a reached value cursor' rest
  refine ⟨taken ++ taken', by rw [ahead, ahead', List.append_assoc], ?_, fun shows => ?_⟩
  · rw [Token.brackets?_append, brackets]
    exact brackets'
  · refine holds' (fun s hs => shows s (List.mem_append_right _ hs)) ?_
    exact holds fun s hs => shows s (List.mem_append_left _ hs)

def Looks (look : Parse α) : Prop :=
  ∀ cursor value cursor', look.run cursor = .ok (value, cursor') → cursor' = cursor

theorem looks_nextLine : Looks nextLine := by
  intro cursor value cursor' run
  cases run
  rfl

theorem looks_bound : Looks bound := by
  intro cursor value cursor' run
  cases run
  rfl

theorem looks_peek : Looks peek :=
  fun _ _ _ run => (run_peek run).1

theorem Takes.look {look : Parse α} {next : α → Parse β} {result : β → Prop} (h : Looks look)
    (hnext : ∀ value, Takes hidden pending after (next value) result) :
    Takes hidden pending after (look >>= next) result := by
  intro cursor value cursor' run
  obtain ⟨a, reached, ran, rest⟩ := ok_of_run_bind run
  have unmoved := h cursor a reached ran
  subst unmoved
  exact hnext a _ value cursor' rest

/-- What a reader takes where the next token is known. -/
def TakesAt (hidden : String → Prop) (head : Option Token) (pending after : List String)
    (parse : Parse α) (result : α → Prop) : Prop :=
  ∀ cursor, head? cursor = head → TakesFrom hidden pending after parse result cursor

theorem Takes.at {parse : Parse α} {result : α → Prop}
    (h : Takes hidden pending after parse result) (head : Option Token) :
    TakesAt hidden head pending after parse result :=
  fun cursor _ => h cursor

def Peeks (look : Parse (Option Token)) : Prop :=
  ∀ cursor head cursor', look.run cursor = .ok (head, cursor') →
    cursor' = cursor ∧ head = head? cursor ∧ ∀ flaw, head ≠ some (.flaw flaw)

theorem peeks_peek : Peeks peek :=
  fun _ _ _ run => run_peek run

theorem Takes.peek {look : Parse (Option Token)} (h : Peeks look) {next : Option Token → Parse β}
    {result : β → Prop}
    (hnext : ∀ head, TakesAt hidden head pending after (next head) result) :
    Takes hidden pending after (look >>= next) result := by
  intro cursor value cursor' run
  obtain ⟨head, reached, ran, rest⟩ := ok_of_run_bind run
  obtain ⟨unmoved, same, -⟩ := h cursor head reached ran
  subst unmoved
  exact hnext head _ same.symm value cursor' rest

theorem TakesAt.discard {token : Token} {next : Unit → Parse β} {result : β → Prop}
    (step : token.bracket? pending = some between)
    (hnext : Takes hidden between after (next ()) fun b => Token.Show hidden [token] → result b) :
    TakesAt hidden (some token) pending after (Functor.discard Parse.next >>= next) result := by
  intro cursor ahead value cursor' run
  have noFlaw : ∀ flaw, token ≠ .flaw flaw := by
    rintro flaw rfl
    cases step
  rw [run_bind_of_ok (run_discard_next_of_head ahead noFlaw)] at run
  obtain ⟨taken, rest, brackets, holds⟩ := hnext _ value cursor' run
  refine ⟨token :: taken, ?_, ?_, fun shows => ?_⟩
  · rw [ahead_of_head ahead, rest, List.cons_append]
  · simp only [Token.brackets?, step, Option.bind_some]
    exact brackets
  · refine holds (fun s hs => shows s (List.mem_cons_of_mem _ hs)) fun s hs => shows s ?_
    rw [List.mem_singleton.mp hs]
    exact List.mem_cons_self

theorem isSign_iff {s : String} {head : Option Token} :
    isSign s head = true ↔ head = some (.sign s) := by
  unfold isSign
  split
  · simp
  · next other =>
      constructor
      · intro same
        cases same
      · exact fun same => absurd same (other s)

theorem isName_iff {s : String} {head : Option Token} :
    isName s head = true ↔ head = some (.name s) := by
  unfold isName
  split
  · simp
  · next other =>
      constructor
      · intro same
        cases same
      · exact fun same => absurd same (other s)

theorem run_skip {p : Option Token → Bool} {cursor cursor' : Cursor} {found : Bool}
    (run : (do
      if p (← peek) then
        discard next
        return true
      return false : Parse Bool).run cursor = .ok (found, cursor')) :
    (found = true ∧ p (head? cursor) = true ∧ cursor' = passed cursor) ∨
      (found = false ∧ p (head? cursor) = false ∧ cursor' = cursor) := by
  obtain ⟨head, reached, ran, rest⟩ := ok_of_run_bind run
  obtain ⟨unmoved, same, noFlaw⟩ := run_peek ran
  subst unmoved
  subst same
  cases kind : p (head? reached) with
  | false =>
      rw [kind] at rest
      cases rest
      exact .inr ⟨rfl, rfl, rfl⟩
  | true =>
      rw [kind, if_pos rfl] at rest
      obtain ⟨_, passed', ran', rest⟩ := ok_of_run_bind rest
      rw [run_discard_next, ran] at ran'
      cases ran'
      cases rest
      exact .inl ⟨rfl, rfl, rfl⟩

theorem run_skipSign {s : String} {cursor cursor' : Cursor} {found : Bool}
    (run : (skipSign s).run cursor = .ok (found, cursor')) :
    (found = true ∧ head? cursor = some (.sign s) ∧ cursor' = passed cursor) ∨
      (found = false ∧ head? cursor ≠ some (.sign s) ∧ cursor' = cursor) := by
  rcases run_skip run with ⟨rfl, kind, rfl⟩ | ⟨rfl, kind, rfl⟩
  · exact .inl ⟨rfl, isSign_iff.mp kind, rfl⟩
  · exact .inr ⟨rfl, fun same => by simp [isSign_iff.mpr same] at kind, rfl⟩

theorem run_skipName {s : String} {cursor cursor' : Cursor} {found : Bool}
    (run : (skipName s).run cursor = .ok (found, cursor')) :
    (found = true ∧ head? cursor = some (.name s) ∧ cursor' = passed cursor) ∨
      (found = false ∧ head? cursor ≠ some (.name s) ∧ cursor' = cursor) := by
  rcases run_skip run with ⟨rfl, kind, rfl⟩ | ⟨rfl, kind, rfl⟩
  · exact .inl ⟨rfl, isName_iff.mp kind, rfl⟩
  · exact .inr ⟨rfl, fun same => by simp [isName_iff.mpr same] at kind, rfl⟩

theorem Takes.skipSign {s : String} (between : List String) {next : Bool → Parse β}
    {result : β → Prop} (step : (Token.sign s).bracket? pending = some between)
    (found : Takes hidden between after (next true) result)
    (missing : Takes hidden pending after (next false) result) :
    Takes hidden pending after (Parse.skipSign s >>= next) result := by
  intro cursor value cursor' run
  obtain ⟨skipped, reached, ran, rest⟩ := ok_of_run_bind run
  rcases run_skipSign ran with ⟨rfl, ahead, rfl⟩ | ⟨rfl, -, rfl⟩
  · obtain ⟨taken, behind, brackets, holds⟩ := found _ value cursor' rest
    refine ⟨.sign s :: taken, ?_, ?_, fun shows => holds fun t ht => shows t ?_⟩
    · rw [ahead_of_head ahead, behind, List.cons_append]
    · simp only [Token.brackets?, step, Option.bind_some]
      exact brackets
    · exact List.mem_cons_of_mem _ ht
  · exact missing _ value cursor' rest

theorem Takes.skipName {s : String} {next : Bool → Parse β} {result : β → Prop}
    (found : Takes hidden pending after (next true) result)
    (missing : Takes hidden pending after (next false) result) :
    Takes hidden pending after (Parse.skipName s >>= next) result := by
  intro cursor value cursor' run
  obtain ⟨skipped, reached, ran, rest⟩ := ok_of_run_bind run
  rcases run_skipName ran with ⟨rfl, ahead, rfl⟩ | ⟨rfl, -, rfl⟩
  · obtain ⟨taken, behind, brackets, holds⟩ := found _ value cursor' rest
    refine ⟨.name s :: taken, ?_, brackets, fun shows => holds fun t ht => shows t ?_⟩
    · rw [ahead_of_head ahead, behind, List.cons_append]
    · exact List.mem_cons_of_mem _ ht
  · exact missing _ value cursor' rest

theorem takes_expectSign {s : String} (step : (Token.sign s).bracket? pending = some between) :
    Takes hidden pending between (expectSign s) fun _ => True := by
  refine Takes.skipSign _ step ?_ fails_unexpected.takes
  exact Takes.pure trivial

theorem takes_expectName : Takes hidden pending pending expectName fun _ => True := by
  refine Takes.peek peeks_peek fun head => ?_
  split
  · exact TakesAt.discard rfl (Takes.pure fun _ => trivial)
  · exact fails_unexpected.takes.at _

end Parse

end ThemeTemplates
