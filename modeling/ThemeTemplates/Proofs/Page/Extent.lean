import ThemeTemplates.Directive.Emitted
import ThemeTemplates.Page.Piece

/-!
# Where tags end

A tag ends at the first closer that is accepted where it stands. The reader of a page accepts one
outside literals and outside the brackets opened in the tag; the reader of a source, which only has
to find the directives, looks at literals alone. A comment ends at its first closer for both.
-/

namespace ThemeTemplates

def closer (kind : Char) : List Char :=
  [Segment.closingMark kind, '\x7d']

/-- `text` has `inside` and then a closer at its start, and `after` follows. The closer is accepted
behind what stands in front of it, as no earlier one is. -/
structure FirstCloser (accepts : List Char → Prop) (kind : Char)
    (text inside after : List Char) : Prop where
  whole : text = inside ++ (closer kind ++ after)
  accepted : accepts inside
  first : ∀ earlier later, text = earlier ++ (closer kind ++ later) → accepts earlier →
    inside.length ≤ earlier.length

/-- The reader of a page ends a tag behind `inside`. -/
def EndsForPage (kind : Char) (n : Nesting) (inside : List Char) : Prop :=
  kind = '#' ∨ (n.after inside).atTop = true

/-- The reader of a source ends a tag behind `inside`. -/
def EndsForSource (kind : Char) (q : Quotation) (inside : List Char) : Prop :=
  (if kind = '#' then q else q.after inside) = .outside

namespace FirstCloser

variable {accepts : List Char → Prop} {kind c : Char} {text inside after inside' after' : List Char}

theorem nil_iff : FirstCloser accepts kind text [] after ↔
    text = closer kind ++ after ∧ accepts [] :=
  ⟨fun h => ⟨h.whole, h.accepted⟩, fun h => ⟨h.1, h.2, fun _ _ _ _ => Nat.zero_le _⟩⟩

theorem cons_iff (goesOn : ∀ later, c :: text = closer kind ++ later → ¬ accepts []) :
    FirstCloser accepts kind (c :: text) inside after ↔
      ∃ rest, inside = c :: rest ∧
        FirstCloser (fun before => accepts (c :: before)) kind text rest after := by
  constructor
  · intro h
    cases inside with
    | nil =>
        obtain ⟨whole, accepted⟩ := nil_iff.mp h
        exact absurd accepted (goesOn after whole)
    | cons d rest =>
        have whole := h.whole
        rw [List.cons_append, List.cons.injEq] at whole
        obtain ⟨rfl, whole⟩ := whole
        refine ⟨rest, rfl, whole, h.accepted, fun earlier later cut accepted => ?_⟩
        have bound := h.first (c :: earlier) later (by rw [cut, List.cons_append]) accepted
        simpa using bound
  · rintro ⟨rest, rfl, h⟩
    refine ⟨by rw [h.whole, List.cons_append], h.accepted, fun earlier later cut accepted => ?_⟩
    cases earlier with
    | nil => exact absurd accepted (goesOn later cut)
    | cons d earlier =>
        rw [List.cons_append, List.cons.injEq] at cut
        obtain ⟨rfl, cut⟩ := cut
        have bound := h.first earlier later cut accepted
        simp only [List.length_cons]
        omega

theorem unique (h : FirstCloser accepts kind text inside after)
    (h' : FirstCloser accepts kind text inside' after') : inside = inside' ∧ after = after' := by
  have lower := h.first inside' after' h'.whole h'.accepted
  have upper := h'.first inside after h.whole h.accepted
  have same := h.whole.symm.trans h'.whole
  obtain ⟨rfl, rest⟩ := List.append_inj same (by omega)
  exact ⟨rfl, List.append_cancel_left rest⟩

theorem length_le (h : FirstCloser accepts kind text inside after) : 2 ≤ text.length := by
  have length := congrArg List.length h.whole
  simp only [closer, List.length_append, List.length_cons, List.length_nil] at length
  omega

/-- Where every tag that one reader ends may be ended for the other, the other ends it no later. -/
theorem of_accepts {weaker : List Char → Prop} (h : FirstCloser weaker kind text inside after)
    (stronger : ∀ before, accepts before → weaker before) (accepted : accepts inside) :
    FirstCloser accepts kind text inside after :=
  ⟨h.whole, accepted, fun earlier later cut there => h.first earlier later cut (stronger _ there)⟩

end FirstCloser

namespace Piece

theorem splitTag_eq_some_iff {kind : Char} {n : Nesting} {text inside after : List Char} :
    splitTag kind n text = some (inside, after) ↔
      FirstCloser (EndsForPage kind n) kind text inside after := by
  fun_induction splitTag kind n text generalizing inside with
  | case1 =>
      refine ⟨(fun h => by cases h), fun h => ?_⟩
      exact absurd h.length_le (by simp)
  | case2 =>
      refine ⟨(fun h => by cases h), fun h => ?_⟩
      exact absurd h.length_le (by simp)
  | case3 n c d rest closes =>
      simp only [Bool.and_eq_true, Bool.or_eq_true, beq_iff_eq] at closes
      obtain ⟨⟨accepted, rfl⟩, rfl⟩ := closes
      have here : FirstCloser (EndsForPage kind n) kind
          (Segment.closingMark kind :: '\x7d' :: rest) [] rest :=
        FirstCloser.nil_iff.mpr ⟨rfl, accepted⟩
      constructor
      · intro h
        cases h
        exact here
      · intro h
        obtain ⟨rfl, rfl⟩ := here.unique h
        rfl
  | case4 n c d rest open_ ih =>
      have goesOn : ∀ later, c :: d :: rest = closer kind ++ later → ¬ EndsForPage kind n [] := by
        intro later starts accepted
        simp only [closer, List.cons_append, List.nil_append, List.cons.injEq] at starts
        obtain ⟨rfl, rfl, -⟩ := starts
        have top : kind = '#' ∨ n.atTop = true := accepted
        exact open_ (by simpa using top)
      have shifted : (fun before => EndsForPage kind n (c :: before)) =
          EndsForPage kind (n.next c) := rfl
      rw [FirstCloser.cons_iff goesOn, shifted]
      simp only [← ih, Option.map_eq_some_iff, Prod.exists, Prod.mk.injEq]
      constructor
      · rintro ⟨inside, _, h, rfl, rfl⟩
        exact ⟨inside, rfl, h⟩
      · rintro ⟨inside, rfl, h⟩
        exact ⟨inside, after, h, rfl, rfl⟩

end Piece

namespace Segment

theorem splitTagEnd_eq_some_iff {kind : Char} {q : Quotation} {text tag after : List Char} :
    splitTagEnd kind q text = some (tag, after) ↔
      ∃ inside, tag = inside ++ closer kind ∧
        FirstCloser (EndsForSource kind q) kind text inside after := by
  fun_induction splitTagEnd kind q text generalizing tag with
  | case1 =>
      refine ⟨(fun h => by cases h), ?_⟩
      rintro ⟨_, _, h⟩
      exact absurd h.length_le (by simp)
  | case2 =>
      refine ⟨(fun h => by cases h), ?_⟩
      rintro ⟨_, _, h⟩
      exact absurd h.length_le (by simp)
  | case3 q c d rest closes =>
      simp only [Bool.and_eq_true, beq_iff_eq] at closes
      obtain ⟨⟨rfl, rfl⟩, rfl⟩ := closes
      have accepted : EndsForSource kind .outside [] := by simp [EndsForSource, Quotation.after]
      have here : FirstCloser (EndsForSource kind .outside) kind
          (closingMark kind :: '\x7d' :: rest) [] rest :=
        FirstCloser.nil_iff.mpr ⟨rfl, accepted⟩
      constructor
      · intro h
        cases h
        exact ⟨[], rfl, here⟩
      · rintro ⟨inside, rfl, h⟩
        obtain ⟨rfl, rfl⟩ := here.unique h
        rfl
  | case4 q c d rest open_ ih =>
      have goesOn : ∀ later, c :: d :: rest = closer kind ++ later →
          ¬ EndsForSource kind q [] := by
        intro later starts accepted
        simp only [closer, List.cons_append, List.nil_append, List.cons.injEq] at starts
        obtain ⟨rfl, rfl, -⟩ := starts
        have outside : q = .outside := by simpa [EndsForSource, Quotation.after] using accepted
        exact open_ (by simp [outside])
      have shifted : (fun before => EndsForSource kind q (c :: before)) =
          EndsForSource kind (if kind == '#' then q else q.next c) := by
        funext before
        by_cases comment : kind = '#' <;> simp [EndsForSource, comment, Quotation.after]
      simp only [FirstCloser.cons_iff goesOn, shifted, Option.map_eq_some_iff, Prod.exists,
        Prod.mk.injEq]
      constructor
      · rintro ⟨tag, _, found, rfl, rfl⟩
        obtain ⟨inside, rfl, h⟩ := ih.mp found
        exact ⟨c :: inside, rfl, inside, rfl, h⟩
      · rintro ⟨_, rfl, inside, rfl, h⟩
        exact ⟨inside ++ closer kind, after, ih.mpr ⟨inside, rfl, h⟩, rfl, rfl⟩

end Segment

end ThemeTemplates
