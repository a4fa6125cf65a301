import ThemeTemplates.Proofs.Offset.Brackets
import ThemeTemplates.Proofs.Offset.Tags
import ThemeTemplates.Proofs.Source.Pieces

/-!
# The scanner by offsets

A scanner that moves a cursor through a source, one tag, sign or directive a turn, and cuts the
segments out of it. `Placed` is the invariant of a run: what the offsets of the scanner stand for. A
turn keeps it and moves the cursor on; a run is never trapped and answers what the reader of
characters answers.
-/

namespace ThemeTemplates

namespace Segment

variable {line : Nat} {afterWord : Bool} {rest inside inner following : List Char}

theorem scanFrom_escape : scanFrom line afterWord ('@' :: '@' :: rest) =
    (scanFrom line false rest).map (verbatim ['@'] :: ·) := by
  rw [scanFrom]
  exact Except.bind_pure_eq_map ..

theorem scanFrom_sign (single : rest.head? ≠ some '@')
    (text : (afterWord || !rest.head?.any isWordStart) = true) :
    scanFrom line afterWord ('@' :: rest) = (scanFrom line false rest).map (prepend ['@']) := by
  rw [scanFrom]
  · rw [if_pos text]
    exact Except.bind_pure_eq_map ..
  · rintro rest rfl
    exact single rfl

section

variable (here : (afterWord || !rest.head?.any isWordStart) = false)

include here

theorem scanFrom_call (opens : (rest.dropWhile isWordChar).dropWhile isSpaceOrTab = '(' :: inside)
    {close : Char} (closes : splitAtClose { depth := 1 } inside = some (inner, close, following)) :
    scanFrom line afterWord ('@' :: rest) =
      (scanFrom (line + lineBreaks ('(' :: (inner ++ [close]))) false following).map
        (directive (String.ofList (rest.takeWhile isWordChar)) ('(' :: (inner ++ [close])) line ::
          ·) := by
  rw [scanFrom]
  · rw [here, if_neg Bool.false_ne_true]
    simp only
    split
    · next inside' opens' =>
        cases opens.symm.trans opens'
        split
        · next closes' =>
            cases closes.symm.trans closes'
            exact Except.bind_pure_eq_map ..
        · next unclosed => cases closes.symm.trans unclosed
    · next noList => exact absurd opens (noList inside)
  · rintro rest rfl
    simp [isWordStart] at here

theorem scanFrom_unterminated
    (opens : (rest.dropWhile isWordChar).dropWhile isSpaceOrTab = '(' :: inside)
    (unclosed : splitAtClose { depth := 1 } inside = none) :
    scanFrom line afterWord ('@' :: rest) =
      .error ⟨line, .invalid
        (.unterminatedArguments (String.ofList (rest.takeWhile isWordChar)))⟩ := by
  rw [scanFrom]
  · rw [here, if_neg Bool.false_ne_true]
    simp only
    split
    · next inside' opens' =>
        cases opens.symm.trans opens'
        split
        · next closes => cases unclosed.symm.trans closes
        · rfl
    · next noList => exact absurd opens (noList inside)
  · rintro rest rfl
    simp [isWordStart] at here

theorem scanFrom_bare
    (noList : ((rest.dropWhile isWordChar).dropWhile isSpaceOrTab).head? ≠ some '(') :
    scanFrom line afterWord ('@' :: rest) =
      (scanFrom line true (rest.dropWhile isWordChar)).map
        (directive (String.ofList (rest.takeWhile isWordChar)) [] line :: ·) := by
  rw [scanFrom]
  · rw [here, if_neg Bool.false_ne_true]
    simp only
    split
    · next opens => exact absurd (by rw [opens]; rfl) noList
    · exact Except.bind_pure_eq_map ..
  · rintro rest rfl
    simp [isWordStart] at here

end

theorem scanFrom_tag {kind : Char} (opens : opensTag '{' kind = true) {body tag after : List Char}
    (closes : splitTagEnd kind .outside body = some (tag, after)) :
    scanFrom line afterWord ('{' :: kind :: body) =
      (scanFrom (line + lineBreaks ('{' :: kind :: tag)) false after).map
        (prepend ('{' :: kind :: tag)) := by
  rw [scanFrom]
  · simp only [opens, if_true]
    split
    · next closes' =>
        cases closes.symm.trans closes'
        exact Except.bind_pure_eq_map ..
    · next unclosed => cases closes.symm.trans unclosed
  · simp
  · simp

theorem scanFrom_unclosed {kind : Char} (opens : opensTag '{' kind = true) {body : List Char}
    (unclosed : splitTagEnd kind .outside body = none) :
    scanFrom line afterWord ('{' :: kind :: body) =
      .error ⟨line, .invalid (.unclosedTag (String.ofList ['{', kind]))⟩ := by
  rw [scanFrom]
  · simp only [opens, if_true]
    split
    · next closes => cases unclosed.symm.trans closes
    · rfl
  · simp
  · simp

theorem scanFrom_char {c : Char} (noSign : c ≠ '@')
    (noTag : ∀ d, rest.head? = some d → opensTag c d = false) :
    scanFrom line afterWord (c :: rest) =
      (scanFrom (line + lineBreaks [c]) (isWordChar c) rest).map (prepend [c]) := by
  cases rest with
  | nil =>
      have none : scanFrom (line + lineBreaks [c]) (isWordChar c) [] = .ok [] := by rw [scanFrom]
      rw [none, scanFrom]
      · rfl
      · simp [noSign]
      · simp [noSign]
  | cons d rest =>
      rw [scanFrom]
      · simp only [noTag d rfl, Bool.false_eq_true, if_false]
        exact Except.bind_pure_eq_map ..
      · simp [noSign]
      · simp [noSign]

/-- The segments of the rest of a source, behind what stands in front of it. -/
def scanBehind (before rest : List Char) : Except LocatedError (List Segment) :=
  scanFrom (1 + lineBreaks before) (before.getLast?.any isWordChar) rest

section

variable (before : List Char)

theorem scanBehind_char {c : Char} (noSign : c ≠ '@')
    (noTag : ∀ d, rest.head? = some d → opensTag c d = false) :
    scanBehind before ([c] ++ rest) = (scanBehind (before ++ [c]) rest).map (prepend [c]) := by
  rw [scanBehind, List.singleton_append, scanFrom_char noSign noTag, scanBehind,
    getLast?_any_concat, lineBreaks_append, Nat.add_assoc]

theorem scanBehind_sign (single : rest.head? ≠ some '@')
    (text : (before.getLast?.any isWordChar || !rest.head?.any isWordStart) = true) :
    scanBehind before (['@'] ++ rest) = (scanBehind (before ++ ['@']) rest).map
      (prepend ['@']) := by
  rw [scanBehind, List.singleton_append, scanFrom_sign single text, scanBehind, getLast?_any_concat,
    lineBreaks_append]
  rfl

theorem scanBehind_tag {kind : Char} (opens : opensTag '{' kind = true) {after : List Char}
    (closes : splitTagEnd kind .outside (inside ++ (closer kind ++ after)) =
      some (inside ++ closer kind, after)) :
    scanBehind before ('{' :: kind :: (inside ++ closer kind) ++ after) =
      (scanBehind (before ++ '{' :: kind :: (inside ++ closer kind)) after).map
        (prepend ('{' :: kind :: (inside ++ closer kind))) := by
  rw [scanBehind, List.cons_append, List.cons_append, List.append_assoc, scanFrom_tag opens closes,
    scanBehind, Stretch.tag_noWord, lineBreaks_append, Nat.add_assoc]

theorem scanBehind_escape : scanBehind before (['@', '@'] ++ rest) =
    (scanBehind (before ++ ['@', '@']) rest).map (verbatim ['@'] :: ·) := by
  have last : (before ++ ['@', '@']).getLast?.any isWordChar = false := by
    rw [← List.singleton_append, ← List.append_assoc]
    exact getLast?_any_concat ..
  rw [scanBehind, scanBehind, last, lineBreaks_append]
  exact scanFrom_escape

variable (here : (before.getLast?.any isWordChar || !rest.head?.any isWordStart) = false)

include here

theorem scanBehind_call (opens : (rest.dropWhile isWordChar).dropWhile isSpaceOrTab = '(' :: inside)
    {close : Char} (closes : splitAtClose { depth := 1 } inside = some (inner, close, following)) :
    scanBehind before ('@' :: rest) =
      (scanBehind (before ++ '@' :: (rest.takeWhile isWordChar ++
          ((rest.dropWhile isWordChar).takeWhile isSpaceOrTab ++ '(' :: (inner ++ [close]))))
            following).map
        (directive (String.ofList (rest.takeWhile isWordChar)) ('(' :: (inner ++ [close]))
          (1 + lineBreaks before) :: ·) := by
  obtain ⟨-, closing, -⟩ :=
    splitAtClose_spec closes (show Nesting.depth { depth := 1 } = 0 + 1 from rfl)
  rw [scanBehind, scanFrom_call here opens closes, scanBehind, call_noWord _ _ _ _ closing,
    lineBreaks_append, lineBreaks_directive (fun _ => List.mem_takeWhile_imp)
      (fun _ => List.mem_takeWhile_imp), Nat.add_assoc]

theorem scanBehind_bare
    (noList : ((rest.dropWhile isWordChar).dropWhile isSpaceOrTab).head? ≠ some '(') :
    scanBehind before ('@' :: rest) =
      (scanBehind (before ++ '@' :: (rest.takeWhile isWordChar ++ ([] ++ [])))
          (rest.dropWhile isWordChar)).map
        (directive (String.ofList (rest.takeWhile isWordChar)) []
          (1 + lineBreaks before) :: ·) := by
  have starts : rest.head?.any isWordStart = true := by simpa using (Bool.or_eq_false_iff.mp here).2
  have letters : ∀ c ∈ rest.takeWhile isWordChar, isWordChar c = true :=
    fun _ => List.mem_takeWhile_imp
  rw [scanBehind, scanFrom_bare here noList, scanBehind,
    bare_endsInWord _ (head?_any_takeWhile (fun _ => isWordStart_isWordChar) starts) letters,
    lineBreaks_append, lineBreaks_directive letters (fun _ hmem => absurd hmem List.not_mem_nil)]
  rfl

end

end Segment

namespace Offset

/-- Counts the lines of a source while the offset that is asked for grows. -/
structure Lines where
  offset : Nat := 0
  line : Nat := 1
deriving DecidableEq, Repr

def Lines.at (source : List Char) (lines : Lines) (offset : Nat) : Except Trap Lines := do
  let passed ← slice source lines.offset offset
  return { offset, line := lines.line + lineBreaks passed }

/-- The segments of a source up to `textStart`, text from there to the cursor, and the rest to be
read. -/
structure Scanner where
  cursor : Nat := 0
  textStart : Nat := 0
  lines : Lines := {}
  segments : List Segment := []
deriving DecidableEq, Repr

inductive Turn where
  | goesOn (next : Scanner)
  | stops
  | refuses (error : LocatedError)
deriving DecidableEq, Repr

def addText (segments : List Segment) (text : List Char) : List Segment :=
  if text.isEmpty then segments else segments ++ [.verbatim text]

def passTag (source : List Char) (scanner : Scanner) (opening : Nat) (kind : Char) :
    Except Trap Turn := do
  match ← tagEnd source kind (opening + 2) with
  | some stop => return .goesOn { scanner with cursor := stop + 2 }
  | none =>
    let lines ← scanner.lines.at source opening
    return .refuses
      { line := lines.line, error := .invalid (.unclosedTag (String.ofList ['{', kind])) }

/-- The argument list of a directive, which has one if it ends behind its name. -/
def argsText (source : List Char) (nameEnd list stop : Nat) : Except Trap (List Char) :=
  if nameEnd < stop then slice source list stop else return []

/-- Cuts out the directive between its sign and `stop`, and the text in front of it. -/
def addDirective (source : List Char) (scanner : Scanner) (sign nameEnd list stop : Nat) :
    Except Trap Turn := do
  let text ← slice source scanner.textStart sign
  let name ← slice source (sign + 1) nameEnd
  let args ← argsText source nameEnd list stop
  let found := .directive (String.ofList name) args scanner.lines.line
  let segments := addText scanner.segments text ++ [found]
  return .goesOn { scanner with cursor := stop, textStart := stop, segments }

def readDirective (source : List Char) (scanner : Scanner) (sign nameEnd : Nat) :
    Except Trap Turn := do
  let lines ← scanner.lines.at source sign
  let list := nameEnd + (← countWhile isSpaceOrTab source nameEnd)
  if octet? source list = some '(' then
    match matchingClose source list with
    | some close => addDirective source { scanner with lines } sign nameEnd list (close + 1)
    | none =>
      let name ← slice source (sign + 1) nameEnd
      return .refuses
        { line := lines.line, error := .invalid (.unterminatedArguments (String.ofList name)) }
  else addDirective source { scanner with lines } sign nameEnd list nameEnd

def afterWord (source : List Char) (offset : Nat) : Except Trap Bool :=
  if 0 < offset then do
    return isWordChar (← octetBefore source offset)
  else return false

/-- Reads what the sign at an offset begins: one sign written twice, text, or a directive. -/
def passSign (source : List Char) (scanner : Scanner) (sign : Nat) : Except Trap Turn := do
  if octet? source (sign + 1) = some '@' then
    let text ← slice source scanner.textStart (sign + 1)
    let segments := addText scanner.segments text
    return .goesOn { scanner with cursor := sign + 2, textStart := sign + 2, segments }
  else
    let nameEnd := sign + 1 + (← countWhile isWordChar source (sign + 1))
    let inWord ← afterWord source sign
    if inWord || !(octet? source (sign + 1)).any isWordStart then
      return .goesOn { scanner with cursor := sign + 1 }
    else readDirective source scanner sign nameEnd

def turn (source : List Char) (scanner : Scanner) : Except Trap Turn := do
  let rest ← sliceFrom source scanner.cursor
  let sign? := (find? ['@'] rest).map (scanner.cursor + ·)
  let tag? := (← nextTag source scanner.cursor).filter fun (opening, _) => sign?.all (opening < ·)
  match tag?, sign? with
  | some (opening, kind), _ => passTag source scanner opening kind
  | none, some sign => passSign source scanner sign
  | none, none => return .stops

def finish (source : List Char) (scanner : Scanner) : Except Trap (List Segment) := do
  return addText scanner.segments (← sliceFrom source scanner.textStart)

/-- Takes turns until the cursor is at the end. A turn that leaves the cursor where it is, or moves
it back, is a trap. -/
def run (source : List Char) (scanner : Scanner) :
    Except Trap (Except LocatedError (List Segment)) :=
  if _more : scanner.cursor < utf8Length source then do
    match ← turn source scanner with
    | .stops => return .ok (← finish source scanner)
    | .refuses error => return .error error
    | .goesOn next =>
      if _moved : scanner.cursor < next.cursor then run source next
      else .error (.stalled scanner.cursor)
  else return .ok (← finish source scanner)
termination_by utf8Length source - scanner.cursor

def scan (source : List Char) : Except Trap (Except LocatedError (List Segment)) :=
  run source {}

/-- The states that the scanner of a source gets into. -/
inductive Reached (source : List Char) : Scanner → Prop
  | start : Reached source {}
  | turn {scanner next : Scanner} (reached : Reached source scanner)
    (more : scanner.cursor < utf8Length source)
    (turned : turn source scanner = .ok (.goesOn next)) :
    Reached source next

/-! ### The invariant -/

/-- What the offsets of a scanner stand for: `done` is cut into segments, `pending` is text that
waits for the next cut, `rest` is still to be read. Lines are counted up to somewhere in `done`. -/
structure Placed (source : List Char) (scanner : Scanner) (done pending rest : List Char) :
    Prop where
  whole : source = done ++ pending ++ rest
  textStart : scanner.textStart = utf8Length done
  cursor : scanner.cursor = utf8Length (done ++ pending)
  counted : ∃ front behind, done = front ++ behind ∧
    scanner.lines = ⟨utf8Length front, 1 + lineBreaks front⟩

def withText (pending : List Char) (segments : List Segment) : List Segment :=
  if pending.isEmpty then segments else Segment.prepend pending segments

def outcome (scanner : Scanner) (done pending rest : List Char) :
    Except LocatedError (List Segment) :=
  (Segment.scanBehind (done ++ pending) rest).map (scanner.segments ++ withText pending ·)

/-- A turn comes to what the reader of characters comes to, and moves the cursor on. -/
def Turn.Agrees (source : List Char) (scanner : Scanner)
    (answer : Except LocatedError (List Segment)) :
    Turn → Prop
  | goesOn next => scanner.cursor < next.cursor ∧ ∃ done pending rest,
      Placed source next done pending rest ∧ outcome next done pending rest = answer
  | stops => ∃ segments, finish source scanner = .ok segments ∧ answer = .ok segments
  | refuses error => answer = .error error

namespace Placed

variable {source done pending rest front back : List Char} {scanner : Scanner}

theorem start (source : List Char) : Placed source {} [] [] source :=
  ⟨rfl, rfl, rfl, [], [], rfl, rfl⟩

theorem standsAt (h : Placed source scanner done pending rest) :
    StandsAt source scanner.cursor rest :=
  ⟨done ++ pending, h.whole, h.cursor.symm⟩

theorem standsAt_text (h : Placed source scanner done pending rest) :
    StandsAt source scanner.textStart (pending ++ rest) :=
  ⟨done, by rw [h.whole, List.append_assoc], h.textStart.symm⟩

theorem ordered (h : Placed source scanner done pending rest) :
    scanner.lines.offset ≤ scanner.textStart ∧ scanner.textStart ≤ scanner.cursor ∧
      scanner.cursor ≤ utf8Length source := by
  obtain ⟨front, behind, rfl, counted⟩ := h.counted
  have length := h.standsAt.length
  rw [counted, h.textStart, h.cursor] at *
  simp only [utf8Length_append] at *
  omega

theorem pass (h : Placed source scanner done pending (front ++ back)) {cursor : Nat}
    (moved : cursor = scanner.cursor + utf8Length front) :
    Placed source { scanner with cursor } done (pending ++ front) back := by
  refine ⟨?_, h.textStart, ?_, h.counted⟩
  · rw [h.whole]
    simp
  · show cursor = _
    rw [moved, h.cursor, ← utf8Length_append, List.append_assoc]

theorem lines_at (h : Placed source scanner done pending rest) :
    scanner.lines.at source scanner.cursor =
      .ok ⟨scanner.cursor, 1 + lineBreaks (done ++ pending)⟩ := by
  obtain ⟨front, behind, rfl, counted⟩ := h.counted
  have standing : StandsAt source (utf8Length front) ((behind ++ pending) ++ rest) :=
    ⟨front, by rw [h.whole]; simp, rfl⟩
  have place : scanner.cursor = utf8Length front + utf8Length (behind ++ pending) := by
    rw [h.cursor, List.append_assoc, utf8Length_append]
  rw [Lines.at, counted, place, standing.slice_eq, ok_bind]
  simp only [List.append_assoc, lineBreaks_append, Nat.add_assoc]
  rfl

/-- A cut is made behind what stands at the cursor. Lines are counted up to somewhere in front of
that. -/
theorem cut (h : Placed source scanner done pending (front ++ back)) {stop : Nat}
    (moved : stop = scanner.cursor + utf8Length front) {lines : Lines}
    (counted : ∃ before behind, done ++ pending = before ++ behind ∧
      lines = ⟨utf8Length before, 1 + lineBreaks before⟩) (segments : List Segment) :
    Placed source ⟨stop, stop, lines, segments⟩ (done ++ pending ++ front) [] back := by
  have place : stop = utf8Length (done ++ pending ++ front) := by
    rw [moved, h.cursor, ← utf8Length_append]
  obtain ⟨before, behind, inFront, counted⟩ := counted
  refine ⟨?_, place, ?_, before, behind ++ front, ?_, counted⟩
  · rw [h.whole, List.append_nil, List.append_assoc _ front]
  · rw [List.append_nil]
    exact place
  · rw [inFront, List.append_assoc]

end Placed

theorem addText_withText (segments : List Segment) (pending : List Char) :
    addText segments pending = segments ++ withText pending [] := by
  cases pending <;> simp [addText, withText, Segment.prepend]

theorem withText_prepend {chunk : List Char} (nonempty : chunk ≠ []) (pending : List Char)
    (segments : List Segment) :
    withText pending (Segment.prepend chunk segments) = withText (pending ++ chunk) segments := by
  cases pending with
  | nil => simp [withText, nonempty]
  | cons c pending => simp [withText, Segment.prepend_prepend]

theorem withText_verbatim (pending : List Char) {text : List Char} (nonempty : text ≠ [])
    (segments : List Segment) :
    withText pending (.verbatim text :: segments) = addText [] (pending ++ text) ++ segments := by
  cases pending <;> simp [withText, addText, Segment.prepend, nonempty]

theorem withText_directive (pending : List Char) (name : String) (args : List Char) (line : Nat)
    (segments : List Segment) :
    withText pending (.directive name args line :: segments) =
      addText [] pending ++ .directive name args line :: segments := by
  cases pending <;> simp [withText, addText, Segment.prepend]

theorem addText_append (segments : List Segment) (text : List Char) :
    addText segments text = segments ++ addText [] text := by
  cases text <;> simp [addText]

/-! ### Tags and signs -/

theorem getLast?_octets {p : Char → Bool} (ascii : ∀ c, Foreign c → p c = false)
    (text : List Char) :
    (octets text).getLast?.any p = text.getLast?.any p := by
  cases text using List.reverseRecOn with
  | nil => rfl
  | append_singleton text c =>
      rw [octets_append, getLast?_any_concat]
      by_cases foreign : Foreign c
      · obtain ⟨nonempty, all⟩ := octets_of_foreign foreign
        rw [List.getLast?_append_of_ne_nil _ nonempty, List.getLast?_eq_some_getLast nonempty,
          ascii c foreign]
        exact ascii _ (all _ (List.getLast_mem nonempty))
      · rw [octets_of_ascii (Nat.not_lt.mp foreign), getLast?_any_concat]

theorem afterWord_eq (before rest : List Char) :
    afterWord (before ++ rest) (utf8Length before) = .ok (before.getLast?.any isWordChar) := by
  rw [afterWord, ← getLast?_octets (fun _ => Foreign.not_wordChar), utf8Length_eq]
  cases split : octets before using List.reverseRecOn with
  | nil => rfl
  | append_singleton front last =>
      have whole : octets (before ++ rest) = front ++ [last] ++ octets rest := by
        rw [octets_append, split]
      rw [if_pos (by simp), octetBefore_eq whole, ok_bind, getLast?_any_concat]
      rfl

section

variable {source done pending rest : List Char} {scanner : Scanner}

theorem outcome_pass {chunk : List Char} (nonempty : chunk ≠ []) (cursor : Nat)
    (copied : Segment.scanBehind (done ++ pending) (chunk ++ rest) =
      (Segment.scanBehind (done ++ pending ++ chunk) rest).map (Segment.prepend chunk)) :
    outcome scanner done pending (chunk ++ rest) =
      outcome { scanner with cursor } done (pending ++ chunk) rest := by
  rw [outcome, copied, Except.map_map, outcome, ← List.append_assoc]
  refine congrArg (Except.map · _) (funext fun segments => ?_)
  exact congrArg (scanner.segments ++ ·) (withText_prepend nonempty pending segments)

theorem agrees_pass {chunk : List Char}
    (placed : Placed source scanner done pending (chunk ++ rest)) (nonempty : chunk ≠ [])
    {cursor : Nat} (moved : cursor = scanner.cursor + utf8Length chunk)
    (copied : Segment.scanBehind (done ++ pending) (chunk ++ rest) =
      (Segment.scanBehind (done ++ pending ++ chunk) rest).map (Segment.prepend chunk)) :
    (Turn.goesOn { scanner with cursor }).Agrees source scanner
      (outcome scanner done pending (chunk ++ rest)) := by
  refine ⟨?_, done, pending ++ chunk, rest, placed.pass moved,
    (outcome_pass nonempty cursor copied).symm⟩
  show scanner.cursor < cursor
  rw [moved]
  exact Nat.lt_add_of_pos_right (utf8Length_pos nonempty)

theorem utf8Length_opener {kind : Char} (opens : Segment.opensTag '{' kind = true) :
    utf8Length ['{', kind] = 2 := by
  simp only [Segment.opensTag, beq_self_eq_true, Bool.true_and, Bool.or_eq_true,
    beq_iff_eq] at opens
  rcases opens with (rfl | rfl) | rfl <;> rfl

theorem passTag_spec {kind : Char} (opens : Segment.opensTag '{' kind = true) {body : List Char}
    (placed : Placed source scanner done pending ('{' :: kind :: body)) :
    ∃ answer, passTag source scanner scanner.cursor kind = .ok answer ∧
      answer.Agrees source scanner (outcome scanner done pending ('{' :: kind :: body)) := by
  have opener := utf8Length_opener opens
  have standing : StandsAt source (scanner.cursor + utf8Length ['{', kind]) body :=
    placed.standsAt.advance
  rw [opener] at standing
  obtain ⟨stop?, found, ended⟩ := tagEnd_eq opens standing
  rw [passTag, found, ok_bind]
  cases closes : Segment.splitTagEnd kind .outside body with
  | none =>
      rw [closes, Option.map_none, Option.map_eq_none_iff] at ended
      subst ended
      refine ⟨_, by rw [placed.lines_at]; rfl, ?_⟩
      rw [outcome, Segment.scanBehind, Segment.scanFrom_unclosed opens closes]
      rfl
  | some parts =>
      obtain ⟨tag, after⟩ := parts
      rw [closes, Option.map_some, Option.map_eq_some_iff] at ended
      obtain ⟨stop, rfl, place⟩ := ended
      obtain ⟨inside, rfl, ends⟩ := Segment.splitTagEnd_eq_some_iff.mp closes
      obtain rfl := ends.whole
      have length := utf8Length_append ['{', kind] (inside ++ closer kind)
      rw [opener] at length
      have moved : stop + 2 = scanner.cursor + utf8Length
          ('{' :: kind :: (inside ++ closer kind)) :=
        place.trans ((Nat.add_assoc _ _ _).trans (congrArg _ length.symm))
      have cut : '{' :: kind :: (inside ++ (closer kind ++ after)) =
          ('{' :: kind :: (inside ++ closer kind)) ++ after := by simp
      rw [cut] at placed ⊢
      exact ⟨_, rfl, agrees_pass placed (List.cons_ne_nil _ _) moved
        (Segment.scanBehind_tag _ opens closes)⟩

theorem addDirective_eq {name args : List Char}
    (placed : Placed source scanner done pending ('@' :: (name ++ rest))) (lines : Lines)
    {list stop : Nat} (cut : argsText source (scanner.cursor + 1 + utf8Length name) list stop =
      .ok args) :
    addDirective source { scanner with lines } scanner.cursor
      (scanner.cursor + 1 + utf8Length name) list
        stop =
      .ok (.goesOn ⟨stop, stop, lines,
        addText scanner.segments pending ++
          [.directive (String.ofList name) args lines.line]⟩) := by
  have front := placed.standsAt_text.slice_eq
  have place : scanner.textStart + utf8Length pending = scanner.cursor := by
    rw [placed.textStart, placed.cursor, utf8Length_append]
  rw [place] at front
  rw [addDirective, front, ok_bind, (placed.standsAt.next (by decide)).slice_eq, ok_bind, cut]
  rfl

theorem agrees_directive {name blanks args text : List Char} {stop : Nat}
    (placed : Placed source scanner done pending text)
    (cut : text = '@' :: (name ++ (blanks ++ args)) ++ rest)
    (moved : stop = scanner.cursor + utf8Length ('@' :: (name ++ (blanks ++ args))))
    (found : Segment.scanBehind (done ++ pending) text =
      (Segment.scanBehind (done ++ pending ++ '@' :: (name ++ (blanks ++ args))) rest).map
        (.directive (String.ofList name) args (1 + lineBreaks (done ++ pending)) :: ·)) :
    (Turn.goesOn ⟨stop, stop, ⟨scanner.cursor, 1 + lineBreaks (done ++ pending)⟩,
        addText scanner.segments pending ++
          [.directive (String.ofList name) args (1 + lineBreaks (done ++ pending))]⟩).Agrees
      source scanner (outcome scanner done pending text) := by
  subst cut
  generalize same : '@' :: (name ++ (blanks ++ args)) = chunk at *
  have counted : ∃ before behind, done ++ pending = before ++ behind ∧
      (⟨scanner.cursor, 1 + lineBreaks (done ++ pending)⟩ : Lines) =
        ⟨utf8Length before, 1 + lineBreaks before⟩ :=
    ⟨done ++ pending, [], by simp, by rw [placed.cursor]⟩
  refine ⟨?_, _, _, _, placed.cut moved counted _, ?_⟩
  · show scanner.cursor < stop
    rw [moved]
    exact Nat.lt_add_of_pos_right (utf8Length_pos (same ▸ List.cons_ne_nil _ _))
  · rw [outcome, outcome, found, Except.map_map, List.append_nil]
    refine congrArg (Except.map · _) (funext fun segments => ?_)
    rw [Function.comp_apply, withText_directive, addText_append]
    simp [withText]

theorem utf8Length_directive (cursor : Nat) (name blanks args : List Char) :
    cursor + utf8Length ('@' :: (name ++ (blanks ++ args))) =
      cursor + 1 + utf8Length name + utf8Length blanks + utf8Length args := by
  rw [utf8Length_cons, utf8Length_append, utf8Length_append, ← Nat.add_assoc, ← Nat.add_assoc,
    ← Nat.add_assoc]
  rfl

section

variable (here : ((done ++ pending).getLast?.any isWordChar || !rest.head?.any isWordStart) = false)
  (placed : Placed source scanner done pending ('@' :: rest))

include here placed

theorem readDirective_bare
    (noList : ((rest.dropWhile isWordChar).dropWhile isSpaceOrTab).head? ≠ some '(') :
    ∃ answer, readDirective source scanner scanner.cursor
        (scanner.cursor + 1 + utf8Length (rest.takeWhile isWordChar)) = .ok answer ∧
      answer.Agrees source scanner (outcome scanner done pending ('@' :: rest)) := by
  have nameEnd := (placed.standsAt.next (by decide)).dropWhile isWordChar
  have list := nameEnd.dropWhile isSpaceOrTab
  have found := Segment.scanBehind_bare _ here noList
  rw [readDirective, placed.lines_at, ok_bind,
    nameEnd.countWhile_eq fun _ => Foreign.not_spaceOrTab, ok_bind,
    if_neg (mt (list.octet?_eq_some_iff (by decide)).mp noList)]
  have whole := List.takeWhile_append_dropWhile (p := isWordChar) (l := rest)
  generalize rest.takeWhile isWordChar = name at *
  generalize rest.dropWhile isWordChar = following at *
  subst whole
  exact ⟨_, addDirective_eq placed _ (if_neg (lt_irrefl _)),
    agrees_directive placed (by simp) (utf8Length_directive _ name [] []).symm found⟩

theorem readDirective_call {inside : List Char}
    (opens : (rest.dropWhile isWordChar).dropWhile isSpaceOrTab = '(' :: inside) :
    ∃ answer, readDirective source scanner scanner.cursor
        (scanner.cursor + 1 + utf8Length (rest.takeWhile isWordChar)) = .ok answer ∧
      answer.Agrees source scanner (outcome scanner done pending ('@' :: rest)) := by
  have nameEnd := (placed.standsAt.next (by decide)).dropWhile isWordChar
  have list := nameEnd.dropWhile isSpaceOrTab
  have whole := List.takeWhile_append_dropWhile (p := isWordChar) (l := rest)
  rw [opens] at list
  rw [readDirective, placed.lines_at, ok_bind,
    nameEnd.countWhile_eq fun _ => Foreign.not_spaceOrTab, ok_bind,
    if_pos ((list.octet?_eq_some_iff (by decide)).mpr rfl), list.matchingClose_eq]
  cases closes : splitAtClose { depth := 1 } inside with
  | none =>
      have behindSign := placed.standsAt.next (by decide)
      rw [← whole] at behindSign
      refine ⟨_, by rw [Option.map_none, behindSign.slice_eq]; rfl, ?_⟩
      rw [outcome, Segment.scanBehind, Segment.scanFrom_unterminated here opens closes]
      rfl
  | some parts =>
      obtain ⟨inner, close, following⟩ := parts
      have found := Segment.scanBehind_call _ here opens closes
      have behind := Layout.call_eq opens closes
      obtain ⟨inList, closing, -⟩ :=
        splitAtClose_spec closes (show Nesting.depth { depth := 1 } = 0 + 1 from rfl)
      have cut : '(' :: inside = '(' :: (inner ++ [close]) ++ following := by simp [inList]
      rw [cut] at list
      generalize rest.takeWhile isWordChar = name at *
      generalize (rest.dropWhile isWordChar).takeWhile isSpaceOrTab = blanks at *
      rw [behind] at whole
      subst whole
      have args := list.slice_eq
      have directive := utf8Length_directive scanner.cursor name blanks ('(' :: (inner ++ [close]))
      rw [utf8Length_list inner closing, ← Nat.add_assoc, ← Nat.add_assoc] at args directive
      simp only [Option.map_some]
      exact ⟨_, addDirective_eq placed _ ((if_pos (by omega)).trans args),
        agrees_directive placed (by simp) directive.symm found⟩

theorem readDirective_spec :
    ∃ answer, readDirective source scanner scanner.cursor
        (scanner.cursor + 1 + utf8Length (rest.takeWhile isWordChar)) = .ok answer ∧
      answer.Agrees source scanner (outcome scanner done pending ('@' :: rest)) := by
  by_cases list : ((rest.dropWhile isWordChar).dropWhile isSpaceOrTab).head? = some '('
  · obtain ⟨inside, opens⟩ := List.head?_eq_some_iff.mp list
    exact readDirective_call here placed opens
  · exact readDirective_bare here placed list

end

theorem agrees_escape (placed : Placed source scanner done pending (['@', '@'] ++ rest)) :
    (Turn.goesOn ⟨scanner.cursor + 2, scanner.cursor + 2, scanner.lines,
        addText scanner.segments (pending ++ ['@'])⟩).Agrees
      source scanner (outcome scanner done pending (['@', '@'] ++ rest)) := by
  obtain ⟨front, behind, inDone, counted⟩ := placed.counted
  have inFront : done ++ pending = front ++ (behind ++ pending) := by rw [inDone, List.append_assoc]
  refine ⟨Nat.lt_add_of_pos_right Nat.two_pos, _, _, _,
    placed.cut rfl ⟨front, behind ++ pending, inFront, counted⟩ _, ?_⟩
  rw [outcome, outcome, Segment.scanBehind_escape, Except.map_map, List.append_nil]
  refine congrArg (Except.map · _) (funext fun segments => ?_)
  rw [Function.comp_apply, withText_verbatim _ (List.cons_ne_nil _ _), addText_append]
  simp [withText]

theorem passSign_spec (placed : Placed source scanner done pending ('@' :: rest)) :
    ∃ answer, passSign source scanner scanner.cursor = .ok answer ∧
      answer.Agrees source scanner (outcome scanner done pending ('@' :: rest)) := by
  have behindSign := placed.standsAt.next (by decide)
  rw [passSign]
  by_cases escape : rest.head? = some '@'
  · rw [if_pos ((behindSign.octet?_eq_some_iff (by decide)).mpr escape)]
    obtain ⟨following, rfl⟩ := List.head?_eq_some_iff.mp escape
    have text : StandsAt source scanner.textStart ((pending ++ ['@']) ++ '@' :: following) := by
      simpa using placed.standsAt_text
    have place : scanner.textStart + utf8Length (pending ++ ['@']) = scanner.cursor + 1 := by
      rw [placed.textStart, placed.cursor, utf8Length_append, utf8Length_append, ← Nat.add_assoc]
      rfl
    rw [← place, text.slice_eq]
    exact ⟨_, rfl, agrees_escape placed⟩
  · rw [if_neg (mt (behindSign.octet?_eq_some_iff (by decide)).mp escape),
      behindSign.countWhile_eq fun _ => Foreign.not_wordChar, ok_bind]
    have inWord := afterWord_eq (done ++ pending) ('@' :: rest)
    rw [← placed.whole, ← placed.cursor] at inWord
    rw [inWord, ok_bind, behindSign.any_octet? fun _ => Foreign.not_wordStart]
    by_cases text : ((done ++ pending).getLast?.any isWordChar || !rest.head?.any isWordStart) =
        true
    · rw [if_pos text]
      rw [← List.singleton_append] at placed ⊢
      exact ⟨_, rfl, agrees_pass placed (List.cons_ne_nil _ _) rfl
        (Segment.scanBehind_sign _ escape text)⟩
    · rw [if_neg text]
      exact readDirective_spec (Bool.eq_false_iff.mpr text) placed

/-! ### A turn -/

theorem turn_eq (standing : StandsAt source scanner.cursor rest) {tag? : Option (Nat × Char)}
    (next : nextTag source scanner.cursor = .ok tag?) :
    turn source scanner =
      match tag?.filter fun (opening, _) => ((find? ['@'] rest).map (scanner.cursor + ·)).all
        (opening < ·),
        (find? ['@'] rest).map (scanner.cursor + ·) with
      | some (opening, kind), _ => passTag source scanner opening kind
      | none, some sign => passSign source scanner sign
      | none, none => return .stops := by
  rw [turn, standing.sliceFrom_eq, ok_bind, next, ok_bind]

theorem turn_end (standing : StandsAt source scanner.cursor []) :
    turn source scanner = .ok .stops := by
  rw [turn_eq standing (nextTag_of_none rfl standing)]
  rfl

theorem turn_tag {kind : Char} (opens : Segment.opensTag '{' kind = true)
    (standing : StandsAt source scanner.cursor ('{' :: kind :: rest)) :
    turn source scanner = passTag source scanner scanner.cursor kind := by
  rw [turn_eq standing (nextTag_here opens standing)]
  -- a sign can only stand behind the tag's opening
  have first : ((find? ['@'] ('{' :: kind :: rest)).map (scanner.cursor + ·)).all
      (scanner.cursor < ·) = true := by
    rw [find?_cons_of_ne (by decide)]
    cases find? ['@'] (kind :: rest) with
    | none => rfl
    | some i =>
        have size := Char.utf8Size_pos '{'
        simp only [Option.map_some, Option.all_some, decide_eq_true_eq]
        omega
  simp only [Option.filter_some, first, if_true]

theorem turn_sign (standing : StandsAt source scanner.cursor ('@' :: rest)) :
    turn source scanner = passSign source scanner scanner.cursor := by
  obtain ⟨tag?, next, behind⟩ := nextTag_ok standing.tail
  have searched := nextTag_later (fun d _ => by simp [Segment.opensTag]) standing
  rw [turn_eq standing (searched.trans next), find?_cons_self]
  have later : tag?.filter (fun (opening, _) => opening < scanner.cursor) = none := by
    rw [Option.filter_eq_none_iff]
    rintro ⟨opening, kind⟩ same
    have size := Char.utf8Size_pos '@'
    have := behind opening kind same
    simp only [decide_eq_true_eq]
    omega
  simp only [Option.map_some, Nat.add_zero, Option.all_some, later]

/-- The search passes over a character that begins neither a tag nor a directive. -/
theorem turn_char {c : Char} (noSign : c ≠ '@')
    (noTag : ∀ d, rest.head? = some d → Segment.opensTag c d = false)
    (standing : StandsAt source scanner.cursor (c :: rest)) :
    turn source scanner = turn source { scanner with cursor := scanner.cursor + c.utf8Size } := by
  have moved : StandsAt source
      ({ scanner with cursor := scanner.cursor + c.utf8Size } : Scanner).cursor rest :=
        standing.tail
  obtain ⟨tag?, next, -⟩ := nextTag_ok moved
  have sign : (find? ['@'] (c :: rest)).map (scanner.cursor + ·) =
      (find? ['@'] rest).map (scanner.cursor + c.utf8Size + ·) := by
    rw [find?_cons_of_ne noSign, Option.map_map]
    refine congrArg (Option.map · _) (funext fun i => ?_)
    simp only [Function.comp_apply]
    omega
  rw [turn_eq standing ((nextTag_later noTag standing).trans next), turn_eq moved next, sign]
  rfl

theorem Turn.Agrees.of_later {answer : Turn} {result : Except LocatedError (List Segment)}
    {cursor : Nat} (later : scanner.cursor ≤ cursor)
    (h : answer.Agrees source { scanner with cursor } result) :
    answer.Agrees source scanner result := by
  cases answer with
  | goesOn next => exact ⟨later.trans_lt h.1, h.2⟩
  | stops => exact h
  | refuses error => exact h

theorem turn_spec (placed : Placed source scanner done pending rest) :
    ∃ answer, turn source scanner = .ok answer ∧
      answer.Agrees source scanner (outcome scanner done pending rest) := by
  induction rest generalizing scanner pending with
  | nil =>
      have text := placed.standsAt_text
      rw [List.append_nil] at text
      refine ⟨.stops, turn_end placed.standsAt, _, by rw [finish, text.sliceFrom_eq]; rfl, ?_⟩
      rw [outcome, Segment.scanBehind, Segment.scanFrom, addText_withText]
      rfl
  | cons c rest ih =>
      by_cases sign : c = '@'
      · subst sign
        rw [turn_sign placed.standsAt]
        exact passSign_spec placed
      by_cases noTag : ∀ d, rest.head? = some d → Segment.opensTag c d = false
      · have moved : scanner.cursor + c.utf8Size = scanner.cursor + utf8Length [c] := by
          rw [utf8Length_singleton]
        have skipped := turn_char sign noTag placed.standsAt
        rw [← List.singleton_append] at placed ⊢
        obtain ⟨answer, turned, agrees⟩ := ih (placed.pass moved)
        refine ⟨answer, skipped.trans turned, ?_⟩
        rw [outcome_pass (List.cons_ne_nil c []) (scanner.cursor + c.utf8Size)
          (Segment.scanBehind_char (done ++ pending) sign noTag)]
        exact agrees.of_later (Nat.le_add_right _ _)
      · simp only [not_forall, Bool.not_eq_false] at noTag
        obtain ⟨kind, first, opens⟩ := noTag
        obtain ⟨body, rfl⟩ := List.head?_eq_some_iff.mp first
        obtain rfl := Segment.brace_of_opensTag opens
        rw [turn_tag opens placed.standsAt]
        exact passTag_spec opens placed

/-! ### A run -/

theorem run_eq (placed : Placed source scanner done pending rest) :
    run source scanner = .ok (outcome scanner done pending rest) := by
  -- what lies behind the cursor gets shorter with each turn
  induction left : utf8Length source - scanner.cursor using Nat.strong_induction_on
    generalizing scanner done pending rest with
  | h size ih =>
      obtain ⟨answer, turned, agrees⟩ := turn_spec placed
      by_cases more : scanner.cursor < utf8Length source
      · cases answer with
        | goesOn next =>
            obtain ⟨onward, done', pending', rest', placed', same⟩ := agrees
            rw [run, dif_pos more, turned, ok_bind, ← same]
            exact (dif_pos onward).trans (ih _ (by omega) placed' rfl)
        | stops =>
            obtain ⟨segments, finished, same⟩ := agrees
            rw [run, dif_pos more, turned, ok_bind, finished, same]
            rfl
        | refuses error =>
            have same : outcome scanner done pending rest = .error error := agrees
            rw [run, dif_pos more, turned, ok_bind, same]
            rfl
      · have length := placed.standsAt.length
        obtain rfl : rest = [] := utf8Length_eq_zero_iff.mp (by omega)
        cases turned.symm.trans (turn_end placed.standsAt)
        obtain ⟨segments, finished, same⟩ := agrees
        rw [run, dif_neg more, finished, same]
        rfl

theorem scan_eq (source : List Char) : scan source = .ok (Segment.scan source) := by
  have all : outcome {} [] [] source = (Segment.scan source).map id := rfl
  rw [scan, run_eq (Placed.start source), all]
  cases Segment.scan source <;> rfl

theorem Reached.placed (reached : Reached source scanner) :
    ∃ done pending rest, Placed source scanner done pending rest := by
  induction reached with
  | start => exact ⟨[], [], source, .start source⟩
  | turn reached more turned ih =>
      obtain ⟨done, pending, rest, placed⟩ := ih
      obtain ⟨answer, turned', agrees⟩ := turn_spec placed
      cases turned.symm.trans turned'
      obtain ⟨-, done', pending', rest', placed', -⟩ := agrees
      exact ⟨done', pending', rest', placed'⟩

end

end Offset

end ThemeTemplates
