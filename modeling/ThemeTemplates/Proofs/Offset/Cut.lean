import ThemeTemplates.Proofs.Argument.Octets

/-!
# Cuts at offsets

A reader of a text in UTF-8 names a place by its offset, the number of octets in front of it. A text
can be cut where a character begins and at its end. A cut anywhere else, a range that ends before it
starts, an octet behind the last one and a difference below zero are traps. `StandsAt` says what a
text holds from an offset on; the lemmas give the answer of each operation in these terms.
-/

namespace ThemeTemplates

theorem utf8Length_eq (text : List Char) : utf8Length text = (octets text).length := by
  have shifted : ∀ length, text.foldl (fun length c => length + c.utf8Size) length =
      length + (octets text).length := by
    induction text with
    | nil => exact fun _ => rfl
    | cons c rest ih =>
        intro length
        rw [List.foldl_cons, ih, octets_cons, List.length_append, ← Nat.add_assoc]
        simp [octets]
  exact (shifted 0).trans (Nat.zero_add _)

@[simp] theorem utf8Length_nil : utf8Length [] = 0 := rfl

@[simp] theorem utf8Length_append (first second : List Char) :
    utf8Length (first ++ second) = utf8Length first + utf8Length second := by
  simp [utf8Length_eq, octets]

theorem utf8Length_singleton (c : Char) : utf8Length [c] = c.utf8Size :=
  Nat.zero_add _

theorem utf8Length_cons (c : Char) (rest : List Char) :
    utf8Length (c :: rest) = c.utf8Size + utf8Length rest := by
  rw [← List.singleton_append, utf8Length_append, utf8Length_singleton]

theorem utf8Size_of_ascii {c : Char} (ascii : c.toNat ≤ 127) : c.utf8Size = 1 :=
  Char.utf8Size_eq_one_iff.mpr (UInt32.le_iff_toNat_le.mpr ascii)

theorem utf8Length_eq_zero_iff {text : List Char} : utf8Length text = 0 ↔ text = [] := by
  cases text with
  | nil => simp
  | cons c rest =>
      have size := c.utf8Size_pos
      simp only [utf8Length_cons, reduceCtorEq, iff_false]
      omega

theorem utf8Length_pos {text : List Char} (nonempty : text ≠ []) : 0 < utf8Length text :=
  Nat.pos_of_ne_zero (mt utf8Length_eq_zero_iff.mp nonempty)

theorem octets_append (first second : List Char) :
    octets (first ++ second) = octets first ++ octets second :=
  List.flatMap_append

namespace Foreign

variable {c : Char} (foreign : Foreign c)

include foreign

theorem not_spaceOrTab : isSpaceOrTab c = false := by
  simp [isSpaceOrTab, foreign.ne]

theorem not_wordChar : isWordChar c = false := by
  have large : 127 < c.toNat := foreign
  simp [isWordChar, Char.isAlphanum, isAlpha_eq, isUpper_eq, isLower_eq, Char.isDigit, foreign.ne,
    UInt32.le_iff_toNat_le]
  omega

theorem not_wordStart : isWordStart c = false := by
  rw [← Bool.not_eq_true]
  intro starts
  have letter := isWordStart_isWordChar starts
  rw [foreign.not_wordChar] at letter
  cases letter

end Foreign

namespace Offset

/-- Why an operation on offsets has no answer. -/
inductive Trap where
  | reversed (start stop : Nat)
  /-- An offset lies inside a character or behind the end of the text. -/
  | misplaced (offset : Nat)
  /-- Octets are asked for behind the last one. -/
  | beyond (offset : Nat)
  | underflow (whole part : Nat)
  | stalled (offset : Nat)
deriving DecidableEq, Repr

def splitAt? : Nat → List Char → Option (List Char × List Char)
  | 0, text => some ([], text)
  | _ + 1, [] => none
  | offset + 1, c :: rest =>
    if c.utf8Size ≤ offset + 1 then
      (splitAt? (offset + 1 - c.utf8Size) rest).map fun (before, after) => (c :: before, after)
    else none

def slice (text : List Char) (start stop : Nat) : Except Trap (List Char) :=
  if stop < start then .error (.reversed start stop)
  else
    match splitAt? stop text with
    | none => .error (.misplaced stop)
    | some (front, _) =>
      match splitAt? start front with
      | none => .error (.misplaced start)
      | some (_, part) => .ok part

def sliceFrom (text : List Char) (start : Nat) : Except Trap (List Char) :=
  slice text start (utf8Length text)

def octet? (text : List Char) (offset : Nat) : Option Char :=
  (octets text)[offset]?

def octetAt (text : List Char) (offset : Nat) : Except Trap Char :=
  match octet? text offset with
  | some octet => .ok octet
  | none => .error (.beyond offset)

def octetsFrom (text : List Char) (start : Nat) : Except Trap (List Char) :=
  if start ≤ (octets text).length then .ok ((octets text).drop start) else .error (.beyond start)

/-- The number of octets from an offset on up to the first that does not satisfy `p`. -/
def countWhile (p : Char → Bool) (text : List Char) (start : Nat) : Except Trap Nat := do
  let following ← octetsFrom text start
  return (following.takeWhile p).length

def minus (whole part : Nat) : Except Trap Nat :=
  if part ≤ whole then .ok (whole - part) else .error (.underflow whole part)

def octetBefore (text : List Char) (offset : Nat) : Except Trap Char := do
  let place ← minus offset 1
  octetAt text place

def find? (pattern : List Char) : List Char → Option Nat
  | [] => if pattern.isEmpty then some 0 else none
  | c :: rest =>
    if pattern.isPrefixOf (c :: rest) then some 0 else (find? pattern rest).map (· + c.utf8Size)

/-- The characters of a text, each with its offset; the text starts at `offset`. -/
def charOffsets (offset : Nat) : List Char → List (Nat × Char)
  | [] => []
  | c :: rest => (offset, c) :: charOffsets (offset + c.utf8Size) rest

def StandsAt (text : List Char) (offset : Nat) (rest : List Char) : Prop :=
  ∃ before, text = before ++ rest ∧ utf8Length before = offset

/-! ### Where a text can be cut -/

theorem ok_bind {α β : Type} (a : α) (next : α → Except Trap β) :
    (Except.ok a >>= next) = next a := rfl

theorem splitAt?_eq_some_iff {offset : Nat} {text before after : List Char} :
    splitAt? offset text = some (before, after) ↔ text = before ++ after ∧
    utf8Length before = offset := by
  fun_induction splitAt? offset text generalizing before with
  | case1 text =>
      rw [Option.some.injEq, Prod.mk.injEq]
      constructor
      · rintro ⟨rfl, rfl⟩
        exact ⟨rfl, rfl⟩
      · rintro ⟨rfl, empty⟩
        rw [utf8Length_eq_zero_iff.mp empty]
        exact ⟨rfl, rfl⟩
  | case2 offset =>
      refine ⟨nofun, ?_⟩
      rintro ⟨whole, length⟩
      rw [(List.append_eq_nil_iff.mp whole.symm).1] at length
      cases length
  | case3 offset c rest fits ih =>
      simp only [Option.map_eq_some_iff, Prod.exists, Prod.mk.injEq]
      constructor
      · rintro ⟨before', after', found, rfl, rfl⟩
        obtain ⟨rfl, length⟩ := ih.mp found
        rw [utf8Length_cons, length]
        exact ⟨rfl, by omega⟩
      · rintro ⟨whole, length⟩
        cases before with
        | nil => cases length
        | cons d before =>
            obtain ⟨rfl, rfl⟩ := List.cons.inj whole
            rw [utf8Length_cons] at length
            exact ⟨before, after, ih.mpr ⟨rfl, by omega⟩, rfl, rfl⟩
  | case4 offset c rest large =>
      refine ⟨nofun, ?_⟩
      rintro ⟨whole, length⟩
      cases before with
      | nil => cases length
      | cons d before =>
          obtain ⟨rfl, rfl⟩ := List.cons.inj whole
          rw [utf8Length_cons] at length
          omega

theorem slice_eq_ok_iff {text part : List Char} {start stop : Nat} :
    slice text start stop = .ok part ↔
      ∃ before after, text = before ++ part ++ after ∧ utf8Length before = start ∧
        utf8Length (before ++ part) = stop := by
  unfold slice
  split
  · next reversed =>
      refine ⟨nofun, ?_⟩
      rintro ⟨before, after, -, rfl, rfl⟩
      rw [utf8Length_append] at reversed
      omega
  · split
    · next missing =>
        refine ⟨nofun, ?_⟩
        rintro ⟨before, after, whole, -, length⟩
        cases missing.symm.trans (splitAt?_eq_some_iff.mpr ⟨whole, length⟩)
    · next front after found =>
        obtain ⟨rfl, rfl⟩ := splitAt?_eq_some_iff.mp found
        have unique : ∀ {front' after'}, front ++ after = front' ++ after' →
            utf8Length front' = utf8Length front → front = front' := by
          intro front' after' whole length
          have again := splitAt?_eq_some_iff.mpr ⟨whole, length⟩
          exact (Prod.mk.inj (Option.some.inj (found.symm.trans again))).1
        split
        · next missing =>
            refine ⟨nofun, ?_⟩
            rintro ⟨before, after', whole, short, length⟩
            cases missing.symm.trans (splitAt?_eq_some_iff.mpr ⟨unique whole length, short⟩)
        · next before part' cut =>
            obtain ⟨rfl, short⟩ := splitAt?_eq_some_iff.mp cut
            constructor
            · intro same
              cases same
              exact ⟨before, after, rfl, short, rfl⟩
            · rintro ⟨before', after', whole, short', length⟩
              have again := splitAt?_eq_some_iff.mpr ⟨unique whole length, short'⟩
              cases cut.symm.trans again
              rfl

theorem utf8ByteSize_ofList (text : List Char) :
    (String.ofList text).utf8ByteSize = utf8Length text := by
  induction text with
  | nil => rfl
  | cons c rest ih =>
      rw [← List.singleton_append, String.ofList_append, String.utf8ByteSize_append, ih,
        utf8Length_append, utf8Length_singleton]
      exact congrArg (· + utf8Length rest) String.utf8ByteSize_singleton

theorem isValid_iff {text : List Char} {offset : Nat} :
    (String.Pos.Raw.mk offset).IsValid (String.ofList text) ↔
    ∃ rest, StandsAt text offset rest := by
  rw [String.Pos.Raw.isValid_ofList]
  constructor
  · rintro ⟨index, length⟩
    rw [utf8ByteSize_ofList] at length
    exact ⟨text.drop index, text.take index, (List.take_append_drop index text).symm, length.symm⟩
  · rintro ⟨rest, before, rfl, rfl⟩
    refine ⟨before.length, ?_⟩
    rw [utf8ByteSize_ofList, List.take_left]

/-- A text has a part between two offsets if they come in order, do not lie behind its end, and a
character begins or the text ends at both. -/
theorem slice_isOk_iff {text : List Char} {start stop : Nat} :
    (∃ part, slice text start stop = .ok part) ↔
      start ≤ stop ∧ stop ≤ utf8Length text ∧
      (String.Pos.Raw.mk start).IsValid (String.ofList text) ∧
        (String.Pos.Raw.mk stop).IsValid (String.ofList text) := by
  simp only [slice_eq_ok_iff, isValid_iff]
  constructor
  · rintro ⟨part, before, after, rfl, rfl, rfl⟩
    simp only [utf8Length_append]
    exact ⟨by omega, by omega, ⟨part ++ after, before, by simp, rfl⟩,
      ⟨after, before ++ part, rfl, by simp⟩⟩
  · rintro ⟨ordered, -, ⟨behind, before, rfl, rfl⟩, rest, front, whole, rfl⟩
    rcases List.append_eq_append_iff.mp whole with ⟨part, rfl, rfl⟩ | ⟨part, rfl, rfl⟩
    · exact ⟨part, before, rest, by simp, rfl, rfl⟩
    · -- in order, so nothing stands between them
      rw [utf8Length_append] at ordered
      obtain rfl : part = [] := utf8Length_eq_zero_iff.mp (by omega)
      exact ⟨[], front, behind, by simp, by simp, by simp⟩

theorem octetsFrom_isOk_iff {text : List Char} {start : Nat} :
    (∃ following, octetsFrom text start = .ok following) ↔ start ≤ utf8Length text := by
  rw [utf8Length_eq, octetsFrom]
  split_ifs with inside <;> simp [inside]

theorem octetAt_isOk_iff {text : List Char} {offset : Nat} :
    (∃ octet, octetAt text offset = .ok octet) ↔ offset < utf8Length text := by
  rw [utf8Length_eq, octetAt, octet?]
  cases found : (octets text)[offset]? with
  | none => simpa using List.getElem?_eq_none_iff.mp found
  | some octet => simpa using (List.getElem?_eq_some_iff.mp found).1

theorem minus_isOk_iff {whole part : Nat} : (∃ left, minus whole part = .ok left) ↔
    part ≤ whole := by
  rw [minus]
  split_ifs with within <;> simp [within]

theorem octetBefore_eq {text front rest : List Char} {last : Char}
    (whole : octets text = front ++ [last] ++ rest) :
    octetBefore text (front ++ [last]).length = .ok last := by
  have place : minus (front ++ [last]).length 1 = .ok front.length := by simp [minus]
  rw [octetBefore, place, ok_bind]
  simp [octetAt, octet?, whole]

/-! ### What a text holds from an offset on -/

namespace StandsAt

variable {text rest front back : List Char} {offset : Nat}

theorem start (text : List Char) : StandsAt text 0 text :=
  ⟨[], rfl, rfl⟩

theorem length (h : StandsAt text offset rest) : utf8Length text = offset + utf8Length rest := by
  obtain ⟨before, rfl, rfl⟩ := h
  exact utf8Length_append before rest

theorem advance (h : StandsAt text offset (front ++ back)) :
    StandsAt text (offset + utf8Length front) back := by
  obtain ⟨before, rfl, rfl⟩ := h
  exact ⟨before ++ front, by simp, by simp⟩

theorem tail {c : Char} (h : StandsAt text offset (c :: rest)) :
    StandsAt text (offset + c.utf8Size) rest := by
  have behind : StandsAt text (offset + utf8Length [c]) rest := h.advance
  rwa [utf8Length_singleton] at behind

theorem slice_eq (h : StandsAt text offset (front ++ back)) :
    slice text offset (offset + utf8Length front) = .ok front := by
  obtain ⟨before, rfl, rfl⟩ := h
  exact slice_eq_ok_iff.mpr ⟨before, back, by simp, rfl, by simp⟩

theorem sliceFrom_eq (h : StandsAt text offset rest) : sliceFrom text offset = .ok rest := by
  obtain ⟨before, rfl, rfl⟩ := h
  exact slice_eq_ok_iff.mpr ⟨before, [], by simp, rfl, by simp⟩

theorem octets_eq (h : StandsAt text offset rest) : (octets text).drop offset = octets rest := by
  obtain ⟨before, rfl, rfl⟩ := h
  rw [octets_append, utf8Length_eq, List.drop_left]

theorem octetsFrom_eq (h : StandsAt text offset rest) :
    octetsFrom text offset = .ok (octets rest) := by
  have inside : offset ≤ (octets text).length := by
    rw [← utf8Length_eq, h.length]
    omega
  rw [octetsFrom, if_pos inside, h.octets_eq]

theorem octet?_eq (h : StandsAt text offset rest) : octet? text offset = (octets rest).head? := by
  rw [octet?, ← h.octets_eq, List.head?_drop]

theorem any_octet? {p : Char → Bool} (ascii : ∀ c, Foreign c → p c = false)
    (h : StandsAt text offset rest) :
    (octet? text offset).any p = rest.head?.any p := by
  rw [h.octet?_eq, Iteration.head?_octets ascii]

theorem octet?_eq_some_iff {c : Char} (ascii : c.toNat ≤ 127) (h : StandsAt text offset rest) :
    octet? text offset = some c ↔ rest.head? = some c := by
  have same := h.any_octet? (p := (· == c)) fun d foreign => by simpa using foreign.ne ascii
  rw [Bool.eq_iff_iff] at same
  simpa [Option.any_eq_true] using same

theorem next {c : Char} (ascii : c.toNat ≤ 127) (h : StandsAt text offset (c :: rest)) :
    StandsAt text (offset + 1) rest := by
  have behind := h.tail
  rwa [utf8Size_of_ascii ascii] at behind

end StandsAt

theorem takeWhile_octets {p : Char → Bool} {beyond : Bool} (alike : ∀ c, Foreign c → p c = beyond)
    (text : List Char) : (octets text).takeWhile p = octets (text.takeWhile p) := by
  induction text with
  | nil => rfl
  | cons c rest ih =>
      by_cases foreign : Foreign c
      · obtain ⟨nonempty, all⟩ := octets_of_foreign foreign
        have same : ∀ octet ∈ octets [c], p octet = p c := fun octet hmem =>
          (alike octet (all octet hmem)).trans (alike c foreign).symm
        by_cases taken : p c = true
        · rw [List.takeWhile_cons_of_pos taken, octets_cons, octets_cons c (rest.takeWhile p), ← ih]
          exact List.takeWhile_append_of_pos fun octet hmem => (same octet hmem).trans taken
        · obtain ⟨octet, more, cut⟩ := List.exists_cons_of_ne_nil nonempty
          have left : ¬p octet = true := by
            rw [same octet (cut ▸ List.mem_cons_self)]
            exact taken
          rw [List.takeWhile_cons_of_neg taken, octets_cons, cut, List.cons_append,
            List.takeWhile_cons_of_neg left]
          rfl
      · rw [octets_cons, octets_of_ascii (Nat.not_lt.mp foreign), List.singleton_append]
        by_cases taken : p c = true
        · rw [List.takeWhile_cons_of_pos taken, List.takeWhile_cons_of_pos taken, ih, octets_cons c,
            octets_of_ascii (Nat.not_lt.mp foreign), List.singleton_append]
        · rw [List.takeWhile_cons_of_neg taken, List.takeWhile_cons_of_neg taken]
          rfl

/-- Octets are counted up to where the characters change, for a property that characters outside
ASCII have all or none. -/
theorem StandsAt.countWhile_eq {p : Char → Bool} {beyond : Bool} {text rest : List Char}
    {offset : Nat} (alike : ∀ c, Foreign c → p c = beyond) (h : StandsAt text offset rest) :
    countWhile p text offset = .ok (utf8Length (rest.takeWhile p)) := by
  rw [countWhile, h.octetsFrom_eq, ok_bind, takeWhile_octets alike, utf8Length_eq]
  rfl

theorem StandsAt.dropWhile {text rest : List Char} {offset : Nat} (p : Char → Bool)
    (h : StandsAt text offset rest) :
    StandsAt text (offset + utf8Length (rest.takeWhile p)) (rest.dropWhile p) := by
  rw [← List.takeWhile_append_dropWhile (p := p) (l := rest)] at h
  exact h.advance

theorem charOffsets_append (offset : Nat) (first second : List Char) :
    charOffsets offset (first ++ second) =
      charOffsets offset first ++ charOffsets (offset + utf8Length first) second := by
  induction first generalizing offset with
  | nil => simp [charOffsets]
  | cons c first ih => simp [charOffsets, ih, utf8Length_cons, Nat.add_assoc]

theorem lt_of_mem_charOffsets {text : List Char} {offset place : Nat} {c : Char}
    (h : (place, c) ∈ charOffsets offset text) : place < offset + utf8Length text := by
  induction text generalizing offset with
  | nil => cases h
  | cons d rest ih =>
      have size := d.utf8Size_pos
      rw [utf8Length_cons]
      rcases List.mem_cons.mp h with first | later
      · cases first
        omega
      · have := ih later
        omega

theorem StandsAt.dropWhile_charOffsets {text rest : List Char} {offset : Nat}
    (h : StandsAt text offset rest) :
    (charOffsets 0 text).dropWhile (·.1 < offset) = charOffsets offset rest := by
  obtain ⟨before, rfl, rfl⟩ := h
  rw [charOffsets_append, Nat.zero_add, List.dropWhile_append_of_pos]
  · cases rest with
    | nil => rfl
    | cons c rest => simp [charOffsets]
  · rintro ⟨place, c⟩ hmem
    have := lt_of_mem_charOffsets hmem
    rw [Nat.zero_add] at this
    simpa using this

end Offset

end ThemeTemplates
