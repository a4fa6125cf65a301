import Mathlib.Data.List.Basic
import ThemeTemplates.Files.Path
import ThemeTemplates.Files.Tree

/-!
# Paths of names and names of paths

A name is read off a path by putting a dot for each separator, and its path is found by going down
one directory for each dot. Going back and forth respells the path: what was a dot or a backslash in
it is a slash now.
-/

namespace ThemeTemplates

namespace Files

def respelled (stem : List Char) : List Char :=
  stem.map fun c => if c == '.' || isSeparator c then '/' else c

theorem respelled_eq_map_dotted (stem : List Char) :
    respelled stem = (dotted stem).map fun c => if c == '.' then '/' else c := by
  unfold respelled dotted
  rw [List.map_map]
  refine List.map_congr_left fun c _ => ?_
  by_cases separator : isSeparator c = true
  · simp [separator]
  · simp [separator]

theorem dotted_respelled (stem : List Char) : dotted (respelled stem) = dotted stem := by
  unfold respelled dotted
  rw [List.map_map]
  refine List.map_congr_left fun c _ => ?_
  by_cases dot : c = '.'
  · subst dot
    decide
  · by_cases separator : isSeparator c = true
    · simp [separator, show isSeparator '/' = true from rfl]
    · simp [separator, dot]

theorem dotted_eq_iff {first second : List Char} :
    dotted first = dotted second ↔ respelled first = respelled second := by
  constructor
  · intro same
    rw [respelled_eq_map_dotted, same, ← respelled_eq_map_dotted]
  · intro same
    rw [← dotted_respelled, same, dotted_respelled]

theorem respelled_eq_self {stem : List Char} (dots : '.' ∉ stem) (backslashes : '\\' ∉ stem) :
    respelled stem = stem := by
  refine (List.map_congr_left fun c hc => ?_).trans (List.map_id stem)
  have dot : c ≠ '.' := fun same => dots (same ▸ hc)
  have backslash : c ≠ '\\' := fun same => backslashes (same ▸ hc)
  by_cases slash : c = '/'
  · simp [slash, isSeparator]
  · simp [dot, backslash, slash, isSeparator]

/-! ### Paths below a root -/

/-- A path to which a segment is put without a slash between them. -/
def Open (root : List Char) : Prop :=
  root = [] ∨ root.getLast? = some '/'

theorem push_of_open {path segment : List Char} (relative : segment.head? ≠ some '/')
    (h : Open path) :
    push path segment = path ++ segment := by
  unfold push
  split
  · exact absurd rfl relative
  · rcases h with rfl | slash
    · rfl
    · rw [slash]
      rfl

theorem push_of_not_open {path segment : List Char} (relative : segment.head? ≠ some '/')
    (h : ¬ Open path) : push path segment = path ++ '/' :: segment := by
  obtain ⟨nonempty, other⟩ := not_or.mp h
  unfold push
  split
  · exact absurd rfl relative
  · cases last : path.getLast? with
    | none => exact absurd (List.getLast?_eq_none_iff.mp last) nonempty
    | some c =>
        have differs : c ≠ '/' := fun same => other (same ▸ last)
        split
        · next ended => cases ended
        · next slash => exact absurd (Option.some.inj slash) differs
        · rfl

theorem relativeTo_push {root path : List Char} (relative : path.head? ≠ some '/') :
    relativeTo root (push root path) = some path := by
  have kept : path.dropWhile (· == '/') = path := by
    cases path with
    | nil => rfl
    | cons c rest =>
        have other : c ≠ '/' := fun same => relative (congrArg some same)
        simp [other]
  unfold relativeTo
  by_cases h : Open root
  · rw [push_of_open relative h, List.isPrefixOf?_eq_some_iff_append_eq.mpr rfl]
    rcases h with rfl | slash
    · simp [kept]
    · simp [slash, kept]
  · rw [push_of_not_open relative h, List.isPrefixOf?_eq_some_iff_append_eq.mpr rfl]
    simp [kept]

theorem nameFor_push {root path : List Char} (extension : List Char) {name : List Char}
    (relative : path.head? ≠ some '/') :
    nameFor root extension (push root path) = some name ↔
      ∃ stem, path = stem ++ extension ∧ name = dotted stem := by
  unfold nameFor
  rw [relativeTo_push relative]
  simp only [Option.bind_eq_bind, Option.bind_some, Option.bind_eq_some_iff,
    List.isSuffixOf?_eq_some_iff_append_eq, Option.pure_def, Option.some.injEq]
  constructor
  · rintro ⟨stem, rfl, rfl⟩
    exact ⟨stem, rfl, rfl⟩
  · rintro ⟨stem, rfl, rfl⟩
    exact ⟨stem, rfl, rfl⟩

theorem head?_push {path segment : List Char} (absolute : path.head? = some '/') :
    (push path segment).head? = some '/' := by
  by_cases relative : segment.head? = some '/'
  · obtain ⟨rest, rfl⟩ := List.head?_eq_some_iff.mp relative
    rfl
  · obtain ⟨rest, rfl⟩ := List.head?_eq_some_iff.mp absolute
    by_cases h : Open ('/' :: rest)
    · rw [push_of_open relative h]
      rfl
    · rw [push_of_not_open relative h]
      rfl

theorem head?_foldl_push {segments : List (List Char)} {segment : List Char}
    (h : segment ∈ segments) (absolute : segment.head? = some '/') (path : List Char) :
    (segments.foldl push path).head? = some '/' := by
  have stays : ∀ (segments : List (List Char)) (path : List Char), path.head? = some '/' →
      (segments.foldl push path).head? = some '/' := by
    intro segments
    induction segments with
    | nil => exact fun _ absolute => absolute
    | cons segment rest ih => exact fun _ absolute => ih _ (head?_push absolute)
  obtain ⟨before, after, rfl⟩ := List.append_of_mem h
  obtain ⟨rest, rfl⟩ := List.head?_eq_some_iff.mp absolute
  rw [List.foldl_append, List.foldl_cons]
  exact stays after _ rfl

/-! ### Segments of names -/

theorem segments_cons (extension : List Char) {c : Char} (dot : c ≠ '.') (rest : List Char) :
    ∃ segment later, segments extension rest = segment :: later ∧
      segments extension (c :: rest) = (c :: segment) :: later := by
  have differs : (c == '.') = false := beq_false_of_ne dot
  cases found : segments extension rest with
  | nil =>
      refine absurd found ?_
      cases rest with
      | nil => exact List.cons_ne_nil _ _
      | cons d rest =>
          unfold segments
          split
          · exact List.cons_ne_nil _ _
          · split <;> exact List.cons_ne_nil _ _
  | cons segment later =>
      refine ⟨segment, later, rfl, ?_⟩
      rw [segments, differs, found]
      rfl

theorem segments_dot (extension rest : List Char) :
    segments extension ('.' :: rest) = [] :: segments extension rest := rfl

theorem head?_first_segment (extension : List Char) {name segment : List Char}
    {later : List (List Char)} (plain : '/' ∉ name) (nonempty : name ≠ [])
    (found : segments extension name = segment :: later) : segment.head? ≠ some '/' := by
  cases name with
  | nil => exact absurd rfl nonempty
  | cons c rest =>
      by_cases dot : c = '.'
      · subst dot
        rw [segments_dot] at found
        cases found
        nofun
      · obtain ⟨segment', later', -, eq⟩ := segments_cons extension dot rest
        rw [eq] at found
        cases found
        intro slash
        exact plain (Option.some.inj slash ▸ List.mem_cons_self)

theorem exists_absolute_segment_iff (extension : List Char) {name : List Char}
    (plain : '/' ∉ name) :
    (∃ segment ∈ segments extension name, segment.head? = some '/') ↔
      (name = [] ∨ name.getLast? = some '.') ∧ extension.head? = some '/' := by
  induction name with
  | nil => simp [segments]
  | cons c rest ih =>
      have slash : c ≠ '/' := fun same => plain (same ▸ List.mem_cons_self)
      have plainRest : '/' ∉ rest := fun h => plain (List.mem_cons_of_mem _ h)
      by_cases dot : c = '.'
      · subst dot
        have last : ('.' :: rest).getLast? = some '.' ↔ rest = [] ∨ rest.getLast? = some '.' := by
          cases rest <;> simp
        rw [segments_dot]
        simpa [last] using ih plainRest
      · obtain ⟨segment, later, found, eq⟩ := segments_cons extension dot rest
        rw [eq]
        cases rest with
        | nil =>
            cases found
            simp [dot, slash]
        | cons d rest =>
            have relative := head?_first_segment extension plainRest (List.cons_ne_nil _ _) found
            rw [found] at ih
            simpa [slash, relative] using ih plainRest

/-- A path respelled is found outside all roots if its extension starts with a slash and nothing
stands in front of it in the last segment. -/
theorem exists_absolute_segment_dotted_iff (extension stem : List Char) :
    (∃ segment ∈ segments extension (dotted stem), segment.head? = some '/') ↔
      Open (respelled stem) ∧ extension.head? = some '/' := by
  have plain : '/' ∉ dotted stem := fun h => Bool.noConfusion (not_isSeparator_of_mem_dotted h)
  have last : (respelled stem).getLast? = some '/' ↔ (dotted stem).getLast? = some '.' := by
    rw [respelled_eq_map_dotted, List.getLast?_map]
    cases ended : (dotted stem).getLast? with
    | none => simp
    | some c =>
        have differs : c ≠ '/' := fun same => plain (same ▸ List.mem_of_getLast? ended)
        by_cases dot : c = '.'
        · simp [dot]
        · simp [dot, differs]
  have empty : respelled stem = [] ↔ dotted stem = [] := by
    rw [respelled_eq_map_dotted, List.map_eq_nil_iff]
  rw [exists_absolute_segment_iff extension plain, Open, last, empty]

end Files

namespace FileTree

open Files

theorem splitSlashes_eq_splitOn (path : List Char) : splitSlashes path = path.splitOn '/' := by
  induction path with
  | nil => rfl
  | cons c rest ih =>
      unfold List.splitOn at ih ⊢
      rw [splitSlashes, ih, List.splitOnP_cons_eq_if_modifyHead]
      split
      · rfl
      · obtain ⟨step, later, found⟩ :=
          List.exists_cons_of_ne_nil (List.splitOnP_ne_nil (· == '/') rest)
        rw [found]
        rfl

theorem splitSlashes_ne_nil (path : List Char) : splitSlashes path ≠ [] := by
  rw [splitSlashes_eq_splitOn]
  exact List.splitOn_ne_nil '/' path

theorem splitSlashes_slash (rest : List Char) :
    splitSlashes ('/' :: rest) = [] :: splitSlashes rest := rfl

theorem splitSlashes_cons {c : Char} (slash : c ≠ '/') (rest : List Char) :
    ∃ step later, splitSlashes rest = step :: later ∧
      splitSlashes (c :: rest) = (c :: step) :: later := by
  obtain ⟨step, later, found⟩ := List.exists_cons_of_ne_nil (splitSlashes_ne_nil rest)
  have differs : (c == '/') = false := beq_false_of_ne slash
  refine ⟨step, later, found, ?_⟩
  rw [splitSlashes, differs, found]
  rfl

theorem flatMap_splitSlashes_segments (extension name : List Char) :
    (segments extension name).flatMap splitSlashes =
      splitSlashes ((name.map fun c => if c == '.' then '/' else c) ++ extension) := by
  induction name with
  | nil => simp [segments]
  | cons c rest ih =>
      by_cases dot : c = '.'
      · subst dot
        rw [segments_dot, List.flatMap_cons, ih]
        rfl
      · obtain ⟨segment, later, found, eq⟩ := segments_cons extension dot rest
        rw [found, List.flatMap_cons] at ih
        rw [eq, List.flatMap_cons, List.map_cons, List.cons_append, beq_false_of_ne dot]
        by_cases slash : c = '/'
        · subst slash
          rw [splitSlashes_slash, List.cons_append, ih]
          rfl
        · obtain ⟨step, steps, first, firstEq⟩ := splitSlashes_cons slash segment
          obtain ⟨step', steps', whole, wholeEq⟩ := splitSlashes_cons slash
            ((rest.map fun c => if c == '.' then '/' else c) ++ extension)
          rw [first, whole, List.cons_append] at ih
          obtain ⟨rfl, rfl⟩ := List.cons.inj ih
          rw [firstEq, List.cons_append]
          exact wholeEq.symm

/-- The segments of a name, split at slashes, are the steps of the path respelled. -/
theorem flatMap_splitSlashes_dotted (extension stem : List Char) :
    (segments extension (dotted stem)).flatMap splitSlashes =
      splitSlashes (respelled stem ++ extension) := by
  rw [flatMap_splitSlashes_segments, ← respelled_eq_map_dotted]

end FileTree

end ThemeTemplates
