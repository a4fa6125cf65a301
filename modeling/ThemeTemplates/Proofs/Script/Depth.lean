import ThemeTemplates.Proofs.Script.Reading

/-!
# Scripts that nest too deep

A page of a script whose loops nest deeper than the reader of pages goes is refused at the first
loop that is too deep, where the metadata of its first turn would be set.
-/

namespace ThemeTemplates

namespace Parse

variable {α β : Type}

/-- A reader that learns something from the tokens ahead and stays where it is. -/
def Sees (parse : Parse α) (ahead : List Lexeme) (result : α) : Prop :=
  ∀ line blocks, parse.run ⟨ahead, line, blocks⟩ = .ok (result, ⟨ahead, line, blocks⟩)

/-- A reader that stops with an error when it comes from a token on a line. -/
def StopsAt (parse : Parse α) (ahead : List Lexeme) (line : Nat) (error : PageError) : Prop :=
  ∀ blocks, parse.run ⟨ahead, line, blocks⟩ = .error error

/-- A reader that stops with an error wherever it comes from. -/
def Stops (parse : Parse α) (ahead : List Lexeme) (error : PageError) : Prop :=
  ∀ line, StopsAt parse ahead line error

variable {first : Parse α} {next : α → Parse β} {ahead between rest : List Lexeme} {a : α}
    {line : Nat}
  {error : PageError} {token : Token} {s : String}

theorem Sees.bind {b : β} (h : Sees first ahead a) (hnext : Sees (next a) ahead b) :
    Sees (first >>= next) ahead b :=
  fun line blocks => (run_bind_of_ok (h line blocks) next).trans (hnext line blocks)

theorem Sees.stopsAt (h : Sees first ahead a) (hnext : StopsAt (next a) ahead line error) :
    StopsAt (first >>= next) ahead line error :=
  fun blocks => (run_bind_of_ok (h line blocks) next).trans (hnext blocks)

theorem StopsAt.bind (h : StopsAt first ahead line error) (next : α → Parse β) :
    StopsAt (first >>= next) ahead line error := by
  intro blocks
  rw [run_bind, h blocks]

theorem Yields.stops (h : Yields first ahead a between) (hnext : Stops (next a) between error) :
    Stops (first >>= next) ahead error := by
  intro line blocks
  obtain ⟨line', ran⟩ := h line blocks
  exact (run_bind_of_ok ran next).trans (hnext line' blocks)

theorem Stops.bind (h : Stops first ahead error) (next : α → Parse β) :
    Stops (first >>= next) ahead error :=
  fun line => (h line).bind next

theorem sees_bound (ahead : List Lexeme) : Sees bound ahead (ahead.length + 1) :=
  fun _ _ => rfl

theorem sees_nextLine : Sees nextLine (⟨token, line⟩ :: rest) line :=
  fun _ _ => rfl

theorem sees_peek (sound : Sound token) : Sees peek (⟨token, line⟩ :: rest) (some token) :=
  fun _ _ => run_peek_of_head rfl sound

theorem sees_skipSign (sound : Sound token) (other : token ≠ .sign s) :
    Sees (skipSign s) (⟨token, line⟩ :: rest) false := by
  refine (sees_peek sound).bind ?_
  have noSign : isSign s (some token) = false := by
    rw [← Bool.not_eq_true, isSign_iff]
    simpa using other
  simp only [noSign, Bool.false_eq_true, if_false]
  exact fun _ _ => rfl

theorem sees_skipName (sound : Sound token) (other : token ≠ .name s) :
    Sees (skipName s) (⟨token, line⟩ :: rest) false := by
  refine (sees_peek sound).bind ?_
  have noName : isName s (some token) = false := by
    rw [← Bool.not_eq_true, isName_iff]
    simpa using other
  simp only [noName, Bool.false_eq_true, if_false]
  exact fun _ _ => rfl

theorem stops_skipSign {next : Bool → Parse β} (s : String)
    (h : StopsAt (next true) rest line error) :
    Stops (skipSign s >>= next) (⟨.sign s, line⟩ :: rest) error := by
  intro line' blocks
  have skipped : (skipSign s).run ⟨⟨.sign s, line⟩ :: rest, line', blocks⟩ =
      .ok (true, ⟨rest, line, blocks⟩) := by
    have sound : Sound (.sign s) := by simp [Sound]
    unfold skipSign
    rw [run_bind_of_ok (sees_peek sound line' blocks)]
    simp only [isSign, beq_self_eq_true, if_true]
    exact run_bind_of_ok (run_discard_next_of_head rfl sound) _
  exact (run_bind_of_ok skipped next).trans (h blocks)

def depthError (line : Nat) : PageError where
  line
  flaw := .malformed "template exceeds maximum recursion limits"

theorem stopsAt_tooDeep (ahead : List Lexeme) (line : Nat) :
    StopsAt (tooDeep : Parse α) ahead line (depthError line) :=
  fun _ => rfl

theorem stopsAt_expressionWithin (begins : Begins ahead) (line : Nat) :
    StopsAt (expressionWithin 0) ahead line (depthError line) := by
  obtain ⟨token, tokenLine, rest, rfl, sound, noNot, noSign⟩ := begins
  have stopped : StopsAt (signedSteps ⟨tooDeep, tooDeep⟩) (⟨token, tokenLine⟩ :: rest) line
      (depthError line) := by
    refine sees_nextLine.stopsAt ((sees_bound _).stopsAt (StopsAt.bind ?_ _))
    refine sees_nextLine.stopsAt ((sees_skipSign sound (noSign "-" (by simp))).stopsAt ?_)
    exact stopsAt_tooDeep _ _
  have factored : StopsAt (factor ⟨tooDeep, tooDeep⟩) (⟨token, tokenLine⟩ :: rest) line
      (depthError line) := (sees_bound _).stopsAt (stopped.bind _)
  refine (sees_bound _).stopsAt ((sees_skipName sound noNot).stopsAt ?_)
  exact StopsAt.bind (StopsAt.bind (StopsAt.bind factored _) _) _

theorem stops_call {function : String} {openLine : Nat} {args : List Lexeme} (begins : Begins args)
    (noNot : function ≠ "not") (plain : word line function = .named line function) :
    Stops (expressionWithin 1) (⟨.name function, line⟩ :: ⟨.sign "(", openLine⟩ :: args)
      (depthError openLine) := by
  have called : Begins (⟨.name function, line⟩ :: ⟨.sign "(", openLine⟩ :: args) :=
    begins_name noNot _ _
  have listed : StopsAt (arguments (expressionWithin 0) line) args openLine
      (depthError openLine) := by
    refine (sees_bound args).stopsAt (StopsAt.bind ?_ _)
    obtain ⟨token, tokenLine, rest, rfl, sound, noName, noSign⟩ := begins
    refine (sees_skipSign sound (noSign ")" (by simp))).stopsAt (StopsAt.bind (StopsAt.bind ?_ _) _)
    exact stopsAt_expressionWithin ⟨token, tokenLine, rest, rfl, sound, noName, noSign⟩ openLine
  have behind : Stops (steps (expressionWithin 0) line (args.length + 3) (.named line function))
      (⟨.sign "(", openLine⟩ :: args) (depthError openLine) := by
    refine (yields_skipSign_other (by simp [Sound]) (by simp)).stops ?_
    refine (yields_skipSign_other (by simp [Sound]) (by simp)).stops ?_
    exact stops_skipSign "(" (listed.bind _)
  have stopped : Stops (signedSteps ⟨operand tooDeep, expressionWithin 0⟩)
      (⟨.name function, line⟩ :: ⟨.sign "(", openLine⟩ :: args) (depthError openLine) := by
    refine yields_nextLine.stops ((yields_bound _).stops ?_)
    have named : Yields (signed ⟨operand tooDeep, expressionWithin 0⟩ (args.length + 3))
        (⟨.name function, line⟩ :: ⟨.sign "(", openLine⟩ :: args) (.named line function)
        (⟨.sign "(", openLine⟩ :: args) :=
      yields_nextLine.bind ((called.skipSign (by simp)).bind (plain ▸ yields_word function))
    exact named.stops behind
  refine (yields_bound _).stops (called.skipName.stops ?_)
  exact Stops.bind (Stops.bind (Stops.bind ((yields_bound _).stops (stopped.bind _)) _) _) _

theorem stops_for {levels closeLine nameLine wordLine : Nat} {name : String} {value : Expression}
    {inside : List Lexeme} (free : name ∉ reservedNames) (notIn : name ≠ "in") {each : Body}
    (expressed : Yields (expressionWithin levels) ahead value
      (⟨.closeStatement, closeLine⟩ :: inside))
    (refused : Stops (each ["endfor", "else"]) inside error) :
    Stops (statement levels each)
      (⟨.name "for", line⟩ :: ⟨.name name, nameLine⟩ :: ⟨.name "in", wordLine⟩ :: ahead) error := by
  refine yields_nextLine.stops ((yields_expectName "for").stops ?_)
  refine (yields_loopVariable free notIn).stops ((yields_skipName "in").stops (expressed.stops ?_))
  exact yields_expectCloseStatement.stops (refused.bind _)

end Parse

open Parse

namespace Script

variable {levels line : Nat} {ends : List String} {ahead inside after left : List Lexeme}
  {tokens : List Token} {value : Expression} {error : PageError}

/-- The tokens ahead are refused as statements, whatever bound on the steps is given that is greater
than their number. -/
def Refuses (levels : Nat) (ends : List String) (ahead : List Lexeme) (error : PageError) : Prop :=
  ∀ n, ahead.length < n → Stops (statements n levels ends) ahead error

namespace Refuses

theorem text (h : Refuses levels ends ahead error) (text : String) (line : Nat) :
    Refuses levels ends (textLexemes line text ++ ahead) error := by
  unfold textLexemes
  split
  · exact h
  · intro n short
    cases n with
    | zero => cases short
    | succ n =>
        exact (yields_next (by simp [Sound])).stops ((h n (by simpa using short)).bind _)

theorem echo (means : Means levels line tokens value) (h : Refuses (levels + 1) ends after error) :
    Refuses (levels + 1) ends (Token.onLine line (.openEcho :: (tokens ++ [.closeEcho])) ++ after)
      error := by
  intro n short
  cases n with
  | zero => cases short
  | succ n =>
      simp only [Token.onLine, List.length_append, List.length_map, List.length_cons] at short
      have shown : Yields (expression (levels + 1)) _ _ _ := means _ (ends_closeEcho line after)
      have all : Stops (statements (n + 1) (levels + 1) ends) (⟨.openEcho, line⟩ :: _) error :=
        (yields_next (by simp [Sound])).stops <|
          shown.stops (yields_expectCloseEcho.stops ((h n (by omega)).bind _))
      simpa [Token.onLine] using all

theorem tag {word : String} {args : List Token} (goesOn : word ∉ ends)
    (begins : tokens = .name word :: args)
    (h : ∀ n, inside.length < n → Stops (statement levels (statements n levels))
      (Token.onLine line tokens ++ ⟨.closeStatement, line⟩ :: inside) error) :
    Refuses (levels + 1) ends
      (Token.onLine line (.openStatement :: (tokens ++ [.closeStatement])) ++ inside) error := by
  rw [onLine_tag]
  intro n short
  cases n with
  | zero => cases short
  | succ n =>
      simp only [List.length_append, List.length_cons] at short
      have refused := h n (by omega)
      subst begins
      refine (yields_next (by simp [Sound])).stops (yields_atWord.stops ?_)
      rw [Bool.eq_false_iff.mpr fun found => goesOn (List.contains_iff_mem.mp found)]
      exact refused.bind _

theorem behindTag {word : String} {args : List Token} {closeLine : Nat} {kind : Statement → Prop}
    (goesOn : word ∉ ends) (begins : tokens = .name word :: args)
    (states : StatedAs levels (Token.onLine line tokens ++ ⟨.closeStatement, line⟩ :: inside) kind
      (⟨.closeStatement, closeLine⟩ :: after))
    (shorter : after.length ≤ inside.length) (h : Refuses (levels + 1) ends after error) :
    Refuses (levels + 1) ends
      (Token.onLine line (.openStatement :: (tokens ++ [.closeStatement])) ++ inside) error := by
  rw [onLine_tag]
  intro n short
  cases n with
  | zero => cases short
  | succ n =>
      simp only [List.length_append, List.length_cons] at short
      obtain ⟨first, stated, -⟩ := states n (by simp; omega)
      subst begins
      refine (yields_next (by simp [Sound])).stops (yields_atWord.stops ?_)
      rw [Bool.eq_false_iff.mpr fun found => goesOn (List.contains_iff_mem.mp found)]
      exact stated.stops (yields_expectCloseStatement.stops ((h n (by omega)).bind _))

theorem behindSet {function : PageFunction} (goesOn : "set" ∉ ends)
    (means : Means levels line (.name function.name :: .sign "(" :: (tokens ++ [.sign ")"])) value)
    (h : Refuses (levels + 2) ends after error) :
    Refuses (levels + 2) ends
      (Token.onLine line (.openStatement :: (setTokens function tokens ++ [.closeStatement])) ++
        after)
      error :=
  behindTag goesOn rfl (statedAs_set means after) le_rfl h

theorem insideFor (kind : LoopKind) (line : Nat) {source : Operand} {name : String}
    (goesOn : "for" ∉ ends) (free : name ∉ unbindable) (ordinary : source.isOrdinary = true)
    (h : Refuses (levels + 3) ["endfor", "else"] inside error) :
    Refuses (levels + 4) ends (Token.onLine line
      (.openStatement :: (forTokens kind source name ++ [.closeStatement])) ++ inside) error := by
  simp only [unbindable, List.mem_append, List.mem_cons, List.not_mem_nil, or_false, not_or] at free
  refine tag goesOn rfl fun n short => ?_
  have pushed := means_push kind ordinary line levels _ (ends_closeStatement line inside)
  have refused : Stops (statement (levels + 3) (statements n (levels + 3))) (⟨.name "for", line⟩ ::
      ⟨.name name, line⟩ :: ⟨.name "in", line⟩ :: _) error :=
    stops_for free.2 free.1.2.1 pushed (h n short)
  simpa [Token.onLine, forTokens] using refused

theorem behindFor (kind : LoopKind) (line : Nat) {source : Operand} {name : String} {stopLine : Nat}
    {kindBody : List Statement → Prop} (goesOn : "for" ∉ ends) (free : name ∉ unbindable)
    (ordinary : source.isOrdinary = true)
    (hbody : ReadAs (levels + 3) ["endfor", "else"] inside kindBody
      (Token.onLine stopLine [.name "endfor", .closeStatement] ++ after))
    (shorter : after.length ≤ inside.length) (h : Refuses (levels + 4) ends after error) :
    Refuses (levels + 4) ends (Token.onLine line
      (.openStatement :: (forTokens kind source name ++ [.closeStatement])) ++ inside) error :=
  behindTag goesOn rfl (statedAs_for kind line free ordinary hbody) shorter h

theorem step (kind : LoopKind) (line : Nat) {name : String} (goesOn : "set" ∉ ends)
    (free : name ∉ unbindable) (after : List Lexeme) :
    Refuses 3 ends (Token.onLine line (.openStatement :: (setTokens .loopNext
      [.name name, .sign ",", .literal kind.name] ++ [.closeStatement])) ++ after)
      (depthError line) := by
  simp only [unbindable, List.mem_append, List.mem_cons, List.not_mem_nil, or_false, not_or] at free
  refine tag goesOn rfl fun n _ => ?_
  refine yields_nextLine.stops ((yields_expectName "set").stops ?_)
  refine (yields_boundName (by decide)).stops ((yields_expectSign "=").stops (Stops.bind ?_ _))
  exact stops_call (begins_name free.1.1 _ _) (by decide) rfl

end Refuses

def tooDeep? (allowed line : Nat) : Script → Option Nat
  | done _ => none
  | echo text _ rest => rest.tooDeep? allowed (line + lineBreaks text.toList)
  | loop text _ _ _ body rest =>
    let start := line + lineBreaks text.toList
    match allowed with
    | 0 => some start
    | inner + 1 =>
      (body.tooDeep? inner start).or (rest.tooDeep? (inner + 1) (start + body.breaks))
  | child text _ rest => rest.tooDeep? allowed (line + lineBreaks text.toList)

theorem tooDeep?_eq_none_iff {script : Script} {allowed line : Nat} :
    script.tooDeep? allowed line = none ↔ script.height ≤ allowed := by
  induction script generalizing allowed line with
  | done text => simp [tooDeep?, height]
  | echo text path rest ih => exact ih
  | child text slug rest ih => exact ih
  | loop text kind source name body rest ihBody ihRest =>
      cases allowed with
      | zero => simp [tooDeep?, height]
      | succ inner =>
          rw [tooDeep?, Option.or_eq_none_iff, ihBody, ihRest, height, Nat.max_le,
            Nat.add_le_add_iff_right]

/-- The tokens of a script that nests too deep are refused at the first loop that does. -/
theorem refuses_lexemes {script : Script} (h : script.isOrdinary = true) {allowed line place : Nat}
    (deep : script.tooDeep? allowed line = some place) {ends : List String} (noFor : "for" ∉ ends)
    (noSet : "set" ∉ ends) (tail : List Lexeme) :
    Refuses (allowed + 4) ends (script.lexemes line ++ tail)
      (depthError (shiftedLine 0 place)) := by
  induction script generalizing allowed ends tail line with
  | done text => cases deep
  | echo text path rest ih =>
      simp only [isOrdinary, Bool.and_eq_true] at h
      obtain ⟨⟨-, ordinary⟩, later⟩ := h
      set start := line + lineBreaks text.toList
      have refused := (ih later deep noFor noSet tail).echo
        (path.means_tokens ordinary (shiftedLine 0 start) (allowed + 2))
      simpa only [lexemes, List.append_assoc] using refused.text text line
  | child text slug rest ih =>
      simp only [isOrdinary, Bool.and_eq_true] at h
      set start := line + lineBreaks text.toList
      have refused := (ih h.2 deep noFor noSet tail).echo
        (means_child slug (shiftedLine 0 start) (allowed + 1))
      simpa only [lexemes, List.append_assoc] using refused.text text line
  | loop text kind source name body rest ihBody ihRest =>
      simp only [isOrdinary, Bool.and_eq_true, Bool.not_eq_true'] at h
      obtain ⟨⟨⟨⟨⟨-, sourced⟩, -⟩, bindable⟩, ordinaryBody⟩, ordinaryRest⟩ := h
      have free : name ∉ unbindable := fun hmem => by
        rw [List.contains_iff_mem.mpr hmem] at bindable
        cases bindable
      set start := line + lineBreaks text.toList
      set stop := start + body.breaks
      cases allowed with
      | zero =>
          obtain rfl : start = place := Option.some.inj deep
          have refused := Refuses.insideFor kind (shiftedLine 0 start) noFor free sourced
            (.step kind (shiftedLine 0 start) (by simp) free
              (body.lexemes start ++ (Token.onLine (shiftedLine 0 stop) (closeTokens kind) ++
                (rest.lexemes stop ++ tail))))
          simpa only [lexemes, onLine_openTokens, List.append_assoc] using refused.text text line
      | succ inner =>
          set after := Token.onLine (shiftedLine 0 stop) (.openStatement ::
            (setTokens .loopPop [.literal kind.name] ++ [.closeStatement])) ++
              (rest.lexemes stop ++ tail)
          set closing := Token.onLine (shiftedLine 0 stop)
            [.openStatement, .name "endfor", .closeStatement] ++ after
          have step := means_step kind free (shiftedLine 0 start) inner
          have refused : Refuses (inner + 5) ends (Token.onLine (shiftedLine 0 start)
              (.openStatement :: (forTokens kind source name ++ [.closeStatement])) ++
              (Token.onLine (shiftedLine 0 start) (.openStatement :: (setTokens .loopNext
                [.name name, .sign ",", .literal kind.name] ++ [.closeStatement])) ++
                (body.lexemes start ++ closing))) (depthError (shiftedLine 0 place)) := by
            rcases Option.or_eq_some_iff.mp deep with deepBody | ⟨shallow, deepRest⟩
            · have inside : Refuses (inner + 4) ["endfor", "else"] _ _ :=
                (ihBody ordinaryBody deepBody (by simp) (by simp) closing).behindSet (by simp) step
              exact .insideFor kind (shiftedLine 0 start) noFor free sourced inside
            · have few := Nat.add_le_add_right (tooDeep?_eq_none_iff.mp shallow) 4
              have closed : ReadAs (inner + 4) ["endfor", "else"] closing
                  (Outline.Codes OfLoops .done)
                  (Token.onLine (shiftedLine 0 stop) [.name "endfor", .closeStatement] ++ after) :=
                .stop (by simp) _ _ _
              have inside := (readAs_lexemes ordinaryBody few (by simp) (by simp) closed start).set
                (by simp) step
              have popped := (ihRest ordinaryRest deepRest noFor noSet tail).behindSet noSet
                (means_pop kind (shiftedLine 0 stop) (inner + 1))
              exact .behindFor kind (shiftedLine 0 start) noFor free sourced inside
                (by simp [closing]; omega) popped
          have reads := refused.text text line
          simpa only [lexemes, closing, after, onLine_openTokens, onLine_closeTokens,
            List.append_assoc] using reads

/-- The page of a script that nests too deep is refused on the line of the first loop that does. -/
theorem parse_tooDeep {script : Script} (h : script.isOrdinary = true) {place : Nat}
    (deep : script.tooDeep? heightLimit 1 = some place) (template : String) :
    Page.parse template script.code = .error (depthError (shiftedLine 0 place)) := by
  have refused := refuses_lexemes h deep List.not_mem_nil List.not_mem_nil [] _
    (Nat.lt_succ_self _) 0 []
  rw [List.append_nil, ← ofPage_code h] at refused
  unfold Page.parse
  exact congrArg (· >>= _) refused

end Script

end ThemeTemplates
