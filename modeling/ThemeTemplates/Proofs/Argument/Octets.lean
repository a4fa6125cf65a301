import ThemeTemplates.Proofs.Argument.Keyword

/-!
# Searches over octets

The word between the sides of an iteration, the blanks around it, quotes and brackets are ASCII. No
octet of another character is taken for one of them, so the search may run over the octets of a text
in UTF-8.
-/

namespace ThemeTemplates

def octets (text : List Char) : List Char :=
  text.flatMap fun c => (String.utf8EncodeChar c).map Char.ofUInt8

/-- Not ASCII. -/
def Foreign (c : Char) : Prop :=
  127 < c.toNat

theorem octets_cons (c : Char) (rest : List Char) :
    octets (c :: rest) = octets [c] ++ octets rest := by
  simp [octets]

theorem octets_of_ascii {c : Char} (ascii : c.toNat ≤ 127) : octets [c] = [c] := by
  have small : c.toNat < 256 := by omega
  have octet : Char.ofUInt8 (UInt8.ofNat c.toNat) = c := by
    refine Char.toNat_inj.mp ((UInt8.toNat_toUInt32 _).trans ?_)
    rw [UInt8.toNat_ofNat', Nat.mod_eq_of_lt small]
  simp [octets, String.utf8EncodeChar, ascii, octet]

theorem octets_of_foreign {c : Char} (foreign : Foreign c) :
    octets [c] ≠ [] ∧ ∀ octet ∈ octets [c], Foreign octet := by
  have large : ¬c.toNat ≤ 127 := Nat.not_le.mpr foreign
  have high : ∀ octet ∈ String.utf8EncodeChar c, 127 < octet.toNat := by
    simp only [String.utf8EncodeChar, Char.toNat_val, large, if_false]
    split_ifs
    all_goals
      simp only [List.forall_mem_cons, UInt8.toNat_ofNat', List.not_mem_nil, false_implies,
        implies_true, and_true]
      omega
  constructor
  · simp [octets]
  · intro octet hmem
    simp only [octets, List.flatMap_singleton, List.mem_map] at hmem
    obtain ⟨value, isOctet, rfl⟩ := hmem
    exact (high value isOctet).trans_eq (UInt8.toNat_toUInt32 value).symm

namespace Foreign

variable {c : Char} (foreign : Foreign c)

include foreign

theorem ne {d : Char} (ascii : d.toNat ≤ 127) : c ≠ d := by
  rintro rfl
  exact absurd foreign (Nat.not_lt.mpr ascii)

theorem not_asciiBlank : isAsciiBlank c = false := by
  simp [isAsciiBlank, isSpaceOrTab, foreign.ne]

theorem not_quote : isQuote c = false := by
  simp [isQuote, foreign.ne]

theorem not_opening : isOpening c = false := by
  simp [isOpening, foreign.ne]

theorem not_closing : isClosing c = false := by
  simp [isClosing, foreign.ne]

end Foreign

namespace Nesting

def Marked (n : Nesting) : Prop :=
  ∀ mark escaped, n.quotation = .inside mark escaped → isQuote mark = true

theorem marked_outside : Marked {} := by
  rintro mark escaped ⟨⟩

theorem Marked.next {n : Nesting} (marked : n.Marked) (c : Char) : (n.next c).Marked :=
  fun _ _ inside => quote_of_inside n [c] marked inside

/-- The state after a character that means nothing: only a backslash in front of it is used up. -/
def passed (n : Nesting) : Nesting :=
  match n.quotation with
  | .inside mark _ => { n with quotation := .inside mark false }
  | .outside => n

theorem passed_passed (n : Nesting) : n.passed.passed = n.passed := by
  obtain ⟨_ | _, depth⟩ := n <;> rfl

theorem Marked.passed {n : Nesting} (marked : n.Marked) : n.passed.Marked := by
  obtain ⟨_ | _, depth⟩ := n
  · exact marked
  · rintro mark escaped ⟨⟩
    exact marked _ _ rfl

theorem Marked.next_of_foreign {n : Nesting} (marked : n.Marked) {c : Char} (foreign : Foreign c) :
    n.next c = n.passed := by
  obtain ⟨_ | ⟨mark, escaped⟩, depth⟩ := n
  · simp [Nesting.next, Nesting.passed, foreign.not_quote, foreign.not_opening, foreign.not_closing]
  · have ascii : c ≠ mark := by
      rintro rfl
      have quote := marked _ _ rfl
      rw [foreign.not_quote] at quote
      cases quote
    have noEscape : c ≠ '\\' := foreign.ne (by decide)
    cases escaped <;> simp [Nesting.next, Nesting.passed, Quotation.next, ascii, noEscape]

theorem Marked.after_of_foreign {n : Nesting} (marked : n.Marked) {text : List Char}
    (nonempty : text ≠ []) (foreign : ∀ c ∈ text, Foreign c) : n.after text = n.passed := by
  induction text generalizing n with
  | nil => exact absurd rfl nonempty
  | cons c rest ih =>
      obtain ⟨here, later⟩ := List.forall_mem_cons.mp foreign
      have step : n.after (c :: rest) = n.passed.after rest := by
        rw [after_cons, marked.next_of_foreign here]
      rw [step]
      by_cases last : rest = []
      · rw [last]
        rfl
      · rw [ih marked.passed last later, passed_passed]

end Nesting

namespace Iteration

/-- Whether the word and a blank stand at the start of a text behind its first letter. -/
def restOfWord (text : List Char) : Bool :=
  text.head?.any (· == 's') && text.tail.head?.any isAsciiBlank

theorem splitAs_cons (n : Nesting) (front : Option Char) (c : Char) (rest : List Char) :
    splitAs n front (c :: rest) =
      ((splitAs (n.next c) (some c) rest).map fun (source, binding) => (c :: source, binding)).or
        (if c == 'a' && n.atTop && front.any isAsciiBlank && restOfWord rest then some
          ([], rest.tail)
          else none) := by
  conv_lhs => unfold splitAs
  cases splitAs (n.next c) (some c) rest with
  | some parts => rfl
  | none =>
      rw [Option.map_none, Option.none_or]
      dsimp only
      split
      · next blank after => simp [restOfWord]
      · next other =>
          have none : restOfWord rest = false := by
            match rest with
            | [] | [_] => simp [restOfWord]
            | d :: blank :: after =>
                have noWord : d ≠ 's' := by
                  rintro rfl
                  exact other blank after rfl
                simp [restOfWord, noWord]
          simp [none]

theorem splitAs_foreign {before : List Char} (foreign : ∀ c ∈ before, Foreign c) (n : Nesting)
    (front : Option Char) (rest : List Char) :
    splitAs n front (before ++ rest) =
      (splitAs (n.after before) (before.getLast?.or front) rest).map
        fun (source, binding) => (before ++ source, binding) := by
  induction before generalizing n front with
  | nil => simp [Nesting.after]
  | cons c before ih =>
      obtain ⟨here, later⟩ := List.forall_mem_cons.mp foreign
      have last : (c :: before).getLast?.or front = before.getLast?.or (some c) := by
        cases before with
        | nil => rfl
        | cons d before => simp [List.getLast?_cons]
      rw [List.cons_append, splitAs_cons, ih later, last, Nesting.after_cons]
      cases splitAs ((n.next c).after before) (before.getLast?.or (some c)) rest <;> simp [here.ne]

theorem head?_octets {p : Char → Bool} (ascii : ∀ c, Foreign c → p c = false) (text : List Char) :
    (octets text).head?.any p = text.head?.any p := by
  cases text with
  | nil => rfl
  | cons c rest =>
      rw [octets_cons]
      by_cases foreign : Foreign c
      · obtain ⟨nonempty, all⟩ := octets_of_foreign foreign
        obtain ⟨octet, more, cut⟩ := List.exists_cons_of_ne_nil nonempty
        rw [cut] at all ⊢
        simp [ascii c foreign, ascii octet (all octet List.mem_cons_self)]
      · rw [octets_of_ascii (Nat.not_lt.mp foreign)]
        rfl

theorem tail_octets {text : List Char} (ascii : ∀ c, text.head? = some c → c.toNat ≤ 127) :
    (octets text).tail = octets text.tail := by
  cases text with
  | nil => rfl
  | cons c rest =>
      rw [octets_cons, octets_of_ascii (ascii c rfl)]
      rfl

theorem tail_octets_of_letter {text : List Char} (letter : text.head?.any (· == 's') = true) :
    (octets text).tail = octets text.tail := by
  refine tail_octets fun c first => ?_
  rw [first, Option.any_some, beq_iff_eq] at letter
  subst letter
  decide

theorem restOfWord_octets (text : List Char) : restOfWord (octets text) = restOfWord text := by
  unfold restOfWord
  rw [head?_octets fun c foreign => by simp [foreign.ne]]
  by_cases letter : text.head?.any (· == 's') = true
  · rw [tail_octets_of_letter letter, head?_octets fun c foreign => foreign.not_asciiBlank]
  · rw [Bool.not_eq_true] at letter
    rw [letter, Bool.false_and, Bool.false_and]

theorem splitAs_octets_of_marked {n : Nesting} (marked : n.Marked) {front front' : Option Char}
    (sameBlank : front'.any isAsciiBlank = front.any isAsciiBlank) (text : List Char) :
    splitAs n front' (octets text) = (splitAs n front text).map (Prod.map octets octets) := by
  induction text generalizing n front front' with
  | nil => rfl
  | cons c rest ih =>
      rw [octets_cons]
      by_cases foreign : Foreign c
      · obtain ⟨nonempty, all⟩ := octets_of_foreign foreign
        have itself : ∀ d ∈ [c], Foreign d := List.forall_mem_singleton.mpr foreign
        have blanks : ((octets [c]).getLast?.or front').any isAsciiBlank =
            ([c].getLast?.or front).any isAsciiBlank := by
          have last := List.getLast?_eq_some_getLast nonempty
          rw [last]
          simp [foreign.not_asciiBlank, (all _ (List.getLast_mem nonempty)).not_asciiBlank]
        have passed := splitAs_foreign itself n front rest
        rw [marked.after_of_foreign (List.cons_ne_nil c []) itself, List.singleton_append] at passed
        rw [splitAs_foreign all, marked.after_of_foreign nonempty all, ih marked.passed blanks,
          passed]
        cases splitAs n.passed ([c].getLast?.or front) rest with
        | none => rfl
        | some parts => simp [Prod.map, octets_cons c parts.1]
      · rw [octets_of_ascii (Nat.not_lt.mp foreign), List.singleton_append, splitAs_cons,
          splitAs_cons, ih (marked.next c) rfl, sameBlank, restOfWord_octets]
        cases splitAs (n.next c) (some c) rest with
        | some parts => simp [Prod.map, octets_cons c parts.1,
              octets_of_ascii (Nat.not_lt.mp foreign)]
        | none =>
            simp only [Option.map_none, Option.none_or]
            split
            · next here =>
                simp only [restOfWord, Bool.and_eq_true] at here
                rw [tail_octets_of_letter here.2.1]
                rfl
            · rfl

/-- The search over the octets of a text finds what the search over its characters finds. -/
theorem splitAs_octets (text : List Char) :
    splitAs {} none (octets text) = (splitAs {} none text).map (Prod.map octets octets) :=
  splitAs_octets_of_marked Nesting.marked_outside rfl text

end Iteration

end ThemeTemplates
