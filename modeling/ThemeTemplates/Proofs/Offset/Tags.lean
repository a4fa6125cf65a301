import ThemeTemplates.Proofs.Offset.Cut
import ThemeTemplates.Proofs.Source.Layout

/-!
# Page tags by offsets

Readers that look for the next page tag of a source and for its end. The search for the end runs
over octets and may step into a character; where it stops, a character begins. Neither search is
trapped.
-/

namespace ThemeTemplates.Offset

def tagAt (source : List Char) (offset : Nat) : Except Trap (Option Char) := do
  let rest ← sliceFrom source offset
  match rest with
  | c :: kind :: _ => if Segment.opensTag c kind then return some kind else return none
  | _ => return none

/-- The first page tag from an offset on: where it opens, and the second of its opening
characters. -/
def nextTag (source : List Char) (search : Nat) : Except Trap (Option (Nat × Char)) :=
  match _searched : sliceFrom source search with
  | .error trap => .error trap
  | .ok rest =>
    match find? ['{'] rest with
    | none => .ok none
    | some i => do
      match ← tagAt source (search + i) with
      | some kind => return some (search + i, kind)
      | none => nextTag source (search + i + 1)
termination_by utf8Length source + 1 - search
decreasing_by
  have := (slice_isOk_iff.mp ⟨rest, _searched⟩).1
  omega

/-- The offset of a tag's closer outside literals. `mark` is the quotation mark of the literal in
which the search begins. A backslash in a literal takes the octet behind it along. -/
def findClosing (source : List Char) (kind : Char) (mark : Option Char) (offset : Nat) :
    Except Trap (Option Nat) :=
  if _inside : offset < (octets source).length then
    let octet := (octets source)[offset]
    match mark with
    | some quote =>
      if octet == '\\' then findClosing source kind (some quote) (offset + 2)
      else if octet == quote then findClosing source kind none (offset + 1)
      else findClosing source kind (some quote) (offset + 1)
    | none =>
      if isQuote octet then findClosing source kind (some octet) (offset + 1)
      else do
        let following ← octetsFrom source offset
        if [Segment.closingMark kind, '}'].isPrefixOf following then return some offset
        else findClosing source kind none (offset + 1)
  else .ok none
termination_by (octets source).length - offset

def tagEnd (source : List Char) (kind : Char) (body : Nat) : Except Trap (Option Nat) :=
  if kind == '#' then do
    let inside ← sliceFrom source body
    return (find? [Segment.closingMark kind, '}'] inside).map (body + ·)
  else findClosing source kind none body

/-! ### The next tag -/

theorem find?_cons_of_ne {c d : Char} (other : d ≠ c) (rest : List Char) :
    find? [c] (d :: rest) = (find? [c] rest).map (· + d.utf8Size) := by
  rw [find?, if_neg]
  simpa using other.symm

theorem find?_cons_self (c : Char) (rest : List Char) : find? [c] (c :: rest) = some 0 := by
  rw [find?, if_pos (by simp)]

section

variable {source rest : List Char} {search : Nat}

theorem tagAt_here {kind : Char} (opens : Segment.opensTag '{' kind = true)
    (h : StandsAt source search ('{' :: kind :: rest)) : tagAt source search = .ok (some kind) := by
  rw [tagAt, h.sliceFrom_eq, ok_bind]
  simp only [opens, if_true]
  rfl

theorem tagAt_none {c : Char} (noTag : ∀ d, rest.head? = some d → Segment.opensTag c d = false)
    (h : StandsAt source search (c :: rest)) : tagAt source search = .ok none := by
  rw [tagAt, h.sliceFrom_eq, ok_bind]
  cases rest with
  | nil => rfl
  | cons d rest =>
      simp only [noTag d rfl, Bool.false_eq_true, if_false]
      rfl

theorem nextTag_of_none (missing : find? ['{'] rest = none) (h : StandsAt source search rest) :
    nextTag source search = .ok none := by
  rw [nextTag]
  split
  · next failed => cases h.sliceFrom_eq.symm.trans failed
  · next found =>
      cases h.sliceFrom_eq.symm.trans found
      rw [missing]

theorem nextTag_of_some {i : Nat} (brace : find? ['{'] rest = some i)
    (h : StandsAt source search rest) :
    nextTag source search = (do
      match ← tagAt source (search + i) with
      | some kind => return some (search + i, kind)
      | none => nextTag source (search + i + 1)) := by
  rw [nextTag]
  split
  · next failed => cases h.sliceFrom_eq.symm.trans failed
  · next found =>
      cases h.sliceFrom_eq.symm.trans found
      rw [brace]

theorem nextTag_here {kind : Char} (opens : Segment.opensTag '{' kind = true)
    (h : StandsAt source search ('{' :: kind :: rest)) :
    nextTag source search = .ok (some (search, kind)) := by
  rw [nextTag_of_some (find?_cons_self _ _) h, Nat.add_zero, tagAt_here opens h]
  rfl

theorem nextTag_later {c : Char} (noTag : ∀ d, rest.head? = some d → Segment.opensTag c d = false)
    (h : StandsAt source search (c :: rest)) :
    nextTag source search = nextTag source (search + c.utf8Size) := by
  by_cases brace : c = '{'
  · subst brace
    rw [nextTag_of_some (find?_cons_self _ _) h, Nat.add_zero, tagAt_none noTag h]
    rfl
  · have shifted := find?_cons_of_ne brace rest
    cases found : find? ['{'] rest with
    | none => rw [nextTag_of_none found h.tail, nextTag_of_none (by rw [shifted, found]; rfl) h]
    | some i =>
        have place : search + (i + c.utf8Size) = search + c.utf8Size + i := by omega
        rw [nextTag_of_some found h.tail, nextTag_of_some (by rw [shifted, found]; rfl) h, place]

theorem nextTag_ok (h : StandsAt source search rest) :
    ∃ tag?, nextTag source search = .ok tag? ∧
      ∀ opening kind, tag? = some (opening, kind) → search ≤ opening := by
  induction rest generalizing search with
  | nil => exact ⟨none, nextTag_of_none rfl h, nofun⟩
  | cons c rest ih =>
      by_cases noTag : ∀ d, rest.head? = some d → Segment.opensTag c d = false
      · obtain ⟨tag?, found, behind⟩ := ih h.tail
        refine ⟨tag?, (nextTag_later noTag h).trans found, fun opening kind same => ?_⟩
        exact (Nat.le_add_right _ _).trans (behind opening kind same)
      · simp only [not_forall, Bool.not_eq_false] at noTag
        obtain ⟨kind, first, opens⟩ := noTag
        obtain ⟨behind, rfl⟩ := List.head?_eq_some_iff.mp first
        obtain rfl := Segment.brace_of_opensTag opens
        refine ⟨some (search, kind), nextTag_here opens h, ?_⟩
        rintro _ _ ⟨⟩
        exact Nat.le_refl _

end

/-! ### The end of a tag -/

open Segment

theorem isPrefixOf_pair (c d e : Char) (rest : List Char) :
    [c, d].isPrefixOf (e :: rest) = (c == e && rest.head?.any (· == d)) := by
  cases rest with
  | nil => simp [List.isPrefixOf]
  | cons f rest => simp [List.isPrefixOf, Bool.beq_comm (a := d)]

theorem splitTagEnd_cons (kind : Char) (q : Quotation) (c : Char) (rest : List Char) :
    splitTagEnd kind q (c :: rest) =
      if q == .outside && [closingMark kind, '}'].isPrefixOf (c :: rest) then some
        ([c, '}'], rest.tail)
      else (splitTagEnd kind (if kind == '#' then q else q.next c) rest).map
        fun (tag, after) => (c :: tag, after) := by
  rw [isPrefixOf_pair]
  cases rest with
  | nil => simp [splitTagEnd]
  | cons d rest =>
      rw [splitTagEnd, Bool.beq_comm (a := c), Bool.and_assoc, List.head?_cons, Option.any_some]
      refine ite_congr rfl (fun here => ?_) fun _ => rfl
      simp only [Bool.and_eq_true, beq_iff_eq] at here
      rw [here.2.2]
      rfl

theorem closingMark_of_opensTag {kind : Char} (opens : opensTag '{' kind = true) :
    (closingMark kind).toNat ≤ 127 ∧ isQuote (closingMark kind) = false := by
  simp only [opensTag, beq_self_eq_true, Bool.true_and, Bool.or_eq_true, beq_iff_eq] at opens
  rcases opens with (rfl | rfl) | rfl <;> decide

theorem find?_comment (rest : List Char) :
    (find? [closingMark '#', '}'] rest).map (· + 2) =
      (splitTagEnd '#' .outside rest).map fun (tag, _) => utf8Length tag := by
  induction rest with
  | nil => rfl
  | cons c rest ih =>
      rw [find?, splitTagEnd_cons]
      by_cases here : [closingMark '#', '}'].isPrefixOf (c :: rest) = true
      · have mark := here
        simp only [isPrefixOf_pair, Bool.and_eq_true, beq_iff_eq] at mark
        rw [if_pos here, here, Bool.and_true, beq_self_eq_true, if_pos rfl, ← mark.1]
        rfl
      · simp only [here, Bool.and_false, Bool.false_eq_true, if_false, beq_self_eq_true, if_true,
          Option.map_map]
        have shifted := congrArg (Option.map (· + c.utf8Size)) ih
        rw [Option.map_map, Option.map_map] at shifted
        refine Eq.trans (congrArg (Option.map · _) (funext fun i => ?_)) (shifted.trans ?_)
        · exact Nat.add_right_comm i c.utf8Size 2
        · refine congrArg (Option.map · _) (funext fun (tag, after) => ?_)
          exact (Nat.add_comm _ _).trans (utf8Length_cons c tag).symm

def quotationOf : Option Char → Quotation
  | some quote => .inside quote false
  | none => .outside

section

variable {source : List Char} {kind : Char} (opens : opensTag '{' kind = true)
    (noComment : kind ≠ '#')

section

include noComment

theorem splitTagEnd_later {q : Quotation} {offset : Nat} (inside : offset < (octets source).length)
    (passed : (q == .outside && [closingMark kind, '}'].isPrefixOf ((octets source).drop offset)) =
      false) :
    ((splitTagEnd kind q ((octets source).drop offset)).map fun (tag, _) => offset + tag.length) =
      (splitTagEnd kind (q.next (octets source)[offset]) ((octets source).drop (offset + 1))).map
        fun (tag, _) => offset + 1 + tag.length := by
  rw [List.drop_eq_getElem_cons inside] at passed ⊢
  rw [splitTagEnd_cons, passed, beq_eq_false_iff_ne.mpr noComment, if_neg Bool.false_ne_true,
    if_neg Bool.false_ne_true, Option.map_map]
  refine congrArg (Option.map · _) (funext fun (tag, after) => ?_)
  exact (Nat.add_assoc offset tag.length 1).symm.trans (Nat.add_right_comm offset tag.length 1)

include opens

/-- Over octets, the search for the closer ends where the reader of a source cuts. -/
theorem findClosing_eq (mark : Option Char) (offset : Nat) :
    ∃ stop?, findClosing source kind mark offset = .ok stop? ∧ stop?.map (· + 2) =
      (splitTagEnd kind (quotationOf mark) ((octets source).drop offset)).map
        fun (tag, _) => offset + tag.length := by
  fun_induction findClosing source kind mark offset with
  | case1 offset inside octet quote backslash ih =>
      obtain ⟨stop?, found, ended⟩ := ih
      refine ⟨stop?, found, ended.trans ?_⟩
      have escaped : (quotationOf (some quote)).next octet = .inside quote true := by
        simp [quotationOf, Quotation.next, backslash]
      rw [splitTagEnd_later noComment inside rfl, escaped]
      -- the octet behind the backslash is taken along
      by_cases more : offset + 1 < (octets source).length
      · rw [splitTagEnd_later noComment more rfl]
        rfl
      · rw [List.drop_eq_nil_of_le (Nat.not_lt.mp more), List.drop_eq_nil_of_le (by omega)]
        rfl
  | case2 offset inside octet quote noBackslash ends ih =>
      obtain ⟨stop?, found, ended⟩ := ih
      have left : (quotationOf (some quote)).next octet = .outside := by
        simp [quotationOf, Quotation.next, noBackslash, ends]
      rw [splitTagEnd_later noComment inside rfl, left]
      exact ⟨stop?, found, ended⟩
  | case3 offset inside octet quote noBackslash noEnd ih =>
      obtain ⟨stop?, found, ended⟩ := ih
      have stays : (quotationOf (some quote)).next octet = .inside quote false := by
        simp [quotationOf, Quotation.next, noBackslash, noEnd]
      rw [splitTagEnd_later noComment inside rfl, stays]
      exact ⟨stop?, found, ended⟩
  | case4 offset inside octet quote ih =>
      obtain ⟨stop?, found, ended⟩ := ih
      have entered : (quotationOf none).next octet = .inside octet false := by
        simp [quotationOf, Quotation.next, quote]
      have noCloser : [closingMark kind, '}'].isPrefixOf ((octets source).drop offset) = false := by
        have other : closingMark kind ≠ octet := by
          intro same
          rw [← same, (closingMark_of_opensTag opens).2] at quote
          cases quote
        rw [List.drop_eq_getElem_cons inside, isPrefixOf_pair, beq_eq_false_iff_ne.mpr other,
          Bool.false_and]
      rw [splitTagEnd_later noComment inside (by rw [noCloser, Bool.and_false]), entered]
      exact ⟨stop?, found, ended⟩
  | case5 offset inside octet noQuote ih =>
      have following : octetsFrom source offset = .ok ((octets source).drop offset) :=
        if_pos inside.le
      rw [following, ok_bind]
      by_cases here : [closingMark kind, '}'].isPrefixOf ((octets source).drop offset) = true
      · refine ⟨some offset, if_pos here, ?_⟩
        rw [List.drop_eq_getElem_cons inside] at here ⊢
        rw [splitTagEnd_cons, here]
        rfl
      · have stays : (quotationOf none).next octet = .outside := by
          simp [quotationOf, Quotation.next, noQuote]
        rw [splitTagEnd_later noComment inside (by
          rw [Bool.eq_false_iff.mpr here, Bool.and_false]), stays, if_neg here]
        exact ih
  | case6 mark offset behind =>
      rw [List.drop_eq_nil_of_le (Nat.not_lt.mp behind)]
      exact ⟨none, rfl, rfl⟩

theorem splitTagEnd_foreign {before : List Char} (foreign : ∀ c ∈ before, Foreign c) (n : Nesting)
    (rest : List Char) :
    splitTagEnd kind n.quotation (before ++ rest) =
      (splitTagEnd kind (n.after before).quotation rest).map fun (tag, after) =>
        (before ++ tag, after) := by
  induction before generalizing n with
  | nil => simp [Nesting.after]
  | cons c before ih =>
      obtain ⟨here, later⟩ := List.forall_mem_cons.mp foreign
      have other : closingMark kind ≠ c := (here.ne (closingMark_of_opensTag opens).1).symm
      rw [List.cons_append, splitTagEnd_cons, isPrefixOf_pair, beq_eq_false_iff_ne.mpr other,
        Bool.false_and, Bool.and_false, beq_eq_false_iff_ne.mpr noComment,
        if_neg Bool.false_ne_true, if_neg Bool.false_ne_true, ← Nesting.quotation_next, ih later,
        Option.map_map]
      rfl

/-- The reader of a source cuts the octets of a text where it cuts the text. -/
theorem splitTagEnd_octets {n : Nesting} (marked : n.Marked) (text : List Char) :
    splitTagEnd kind n.quotation (octets text) =
      (splitTagEnd kind n.quotation text).map (Prod.map octets octets) := by
  induction text generalizing n with
  | nil => rfl
  | cons c rest ih =>
      rw [octets_cons]
      by_cases foreign : Foreign c
      · obtain ⟨nonempty, all⟩ := octets_of_foreign foreign
        have itself : ∀ d ∈ [c], Foreign d := List.forall_mem_singleton.mpr foreign
        have passed := splitTagEnd_foreign opens noComment itself n rest
        rw [marked.after_of_foreign (List.cons_ne_nil c []) itself, List.singleton_append] at passed
        rw [splitTagEnd_foreign opens noComment all, marked.after_of_foreign nonempty all,
          ih marked.passed, passed]
        cases splitTagEnd kind n.passed.quotation rest with
        | none => rfl
        | some parts => simp [Prod.map, octets_cons c parts.1]
      · have single := octets_of_ascii (Nat.not_lt.mp foreign)
        have brace : (octets rest).head?.any (· == '}') = rest.head?.any (· == '}') :=
          Iteration.head?_octets (fun d foreign => by simp [foreign.ne]) rest
        rw [single, List.singleton_append, splitTagEnd_cons, splitTagEnd_cons, isPrefixOf_pair,
          isPrefixOf_pair, brace, beq_eq_false_iff_ne.mpr noComment, if_neg Bool.false_ne_true,
          ← Nesting.quotation_next, ih (marked.next c)]
        by_cases here : (n.quotation == .outside &&
            (closingMark kind == c && rest.head?.any (· == '}'))) = true
        · rw [if_pos here, if_pos here]
          cases rest with
          | nil => simp at here
          | cons d rest =>
              have closer : octets [c, '}'] = [c, '}'] := by
                rw [octets_cons, single, octets_of_ascii (by decide)]
                rfl
              simp only [List.head?_cons, Option.any_some, Bool.and_eq_true, beq_iff_eq] at here
              obtain rfl := here.2.2
              rw [Iteration.tail_octets fun _ first => by cases first; decide]
              exact congrArg (fun tag => some (tag, octets rest)) closer.symm
        · rw [if_neg here, if_neg here]
          cases splitTagEnd kind (n.next c).quotation rest with
          | none => rfl
          | some parts => simp [Prod.map, octets_cons c parts.1, single]

end

include opens

/-- The search for the end of a tag stops in front of its closer, if the tag ends. -/
theorem tagEnd_eq {rest : List Char} {body : Nat} (h : StandsAt source body rest) :
    ∃ stop?, tagEnd source kind body = .ok stop? ∧ stop?.map (· + 2) =
      (splitTagEnd kind .outside rest).map fun (tag, _) => body + utf8Length tag := by
  by_cases comment : kind = '#'
  · subst comment
    rw [tagEnd, if_pos (beq_self_eq_true _), h.sliceFrom_eq]
    refine ⟨_, rfl, ?_⟩
    have ended := congrArg (Option.map (body + ·)) (find?_comment rest)
    rw [Option.map_map, Option.map_map] at ended
    rw [Option.map_map]
    exact ended
  · rw [tagEnd, if_neg (by simpa using comment)]
    obtain ⟨stop?, found, ended⟩ := findClosing_eq opens comment none body
    refine ⟨stop?, found, ended.trans ?_⟩
    rw [h.octets_eq]
    refine (congrArg _ (splitTagEnd_octets opens comment Nesting.marked_outside rest)).trans ?_
    rw [Option.map_map]
    refine congrArg (Option.map · _) (funext fun (tag, after) => ?_)
    exact congrArg (body + ·) (utf8Length_eq tag).symm

end

end ThemeTemplates.Offset
