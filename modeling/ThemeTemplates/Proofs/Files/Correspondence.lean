import ThemeTemplates.Proofs.Files.Containment
import ThemeTemplates.Proofs.Files.Slugs
import ThemeTemplates.Proofs.Text.Balance

/-!
# Names and their files

The path of a name and the name of a path undo one another, as long as the segments of the name are
plain. A path is built one directory at a time, which comes to the same as putting the steps behind
the root in one go, and from there the name is read back; the view of a theme file has that file for
its path.
-/

namespace ThemeTemplates

namespace Files

open FileTree

/-- A plain step of a path, which is a segment of a name as well. -/
structure IsStep (step : List Char) : Prop where
  nonempty : step ≠ []
  undotted : '.' ∉ step
  whole : Whole step

instance (step : List Char) : Decidable (IsStep step) :=
  decidable_of_iff (step ≠ [] ∧ '.' ∉ step ∧ Whole step)
    ⟨fun ⟨nonempty, undotted, whole⟩ => ⟨nonempty, undotted, whole⟩,
      fun h => ⟨h.nonempty, h.undotted, h.whole⟩⟩

/-- Plain steps that lead somewhere: there is a last one. -/
inductive Route : List (List Char) → Prop
  | last {step : List Char} (h : IsStep step) : Route [step]
  | onwards {step : List Char} {rest : List (List Char)} (h : IsStep step) (route : Route rest) :
    Route (step :: rest)

/-- A name of plain segments: none is empty and none has a separator in it. -/
def IsName (name : List Char) : Prop :=
  ∀ segment ∈ name.splitOn '.', segment ≠ [] ∧ Whole segment

instance (name : List Char) : Decidable (IsName name) :=
  inferInstanceAs (Decidable (∀ segment ∈ name.splitOn '.', segment ≠ [] ∧ Whole segment))

/-- Two ways to write a path: they start at the same place and take the same steps. -/
structure SamePath (path other : List Char) : Prop where
  start : Absolute path ↔ Absolute other
  steps : components path = components other

def joined (extension : List Char) (steps : List (List Char)) : List Char :=
  ['/'].intercalate steps ++ extension

def titled (steps : List (List Char)) : List Char :=
  ['.'].intercalate steps

/-! ### Plain steps -/

theorem slash_notMem_of_whole {text : List Char} (whole : Whole text) : '/' ∉ text :=
  fun slash => Bool.noConfusion (whole '/' slash)

theorem IsStep.not_open {step : List Char} (h : IsStep step) : ¬ Open step := by
  rintro (rfl | slash)
  · exact h.nonempty rfl
  · exact slash_notMem_of_whole h.whole (List.mem_of_getLast? slash)

theorem IsStep.relative {step : List Char} (h : IsStep step) (rest : List Char) :
    ¬ Absolute (step ++ rest) := by
  obtain ⟨c, tail, rfl⟩ := List.exists_cons_of_ne_nil h.nonempty
  intro slash
  obtain rfl : c = '/' := Option.some.inj slash
  exact slash_notMem_of_whole h.whole List.mem_cons_self

theorem IsStep.not_idle {step : List Char} (h : IsStep step) (rest : List Char) :
    isIdle (step ++ rest) = false := by
  obtain ⟨c, tail, rfl⟩ := List.exists_cons_of_ne_nil h.nonempty
  have dot : c ≠ '.' := fun same => h.undotted (same ▸ List.mem_cons_self)
  simp [isIdle, dot]

theorem dot_notMem_of_mem_splitOn {name segment : List Char} (h : segment ∈ name.splitOn '.') :
    '.' ∉ segment := by
  induction name generalizing segment with
  | nil =>
      rw [List.splitOn_nil, List.mem_singleton] at h
      exact h ▸ List.not_mem_nil
  | cons c rest ih =>
      by_cases dot : c = '.'
      · subst dot
        rw [← List.nil_append ('.' :: rest), List.splitOn_append_cons_self] at h
        rcases List.mem_append.mp h with first | later
        · rw [List.splitOn_nil, List.mem_singleton] at first
          exact first ▸ List.not_mem_nil
        · exact ih later
      · obtain ⟨first, later, found⟩ := List.exists_cons_of_ne_nil (List.splitOn_ne_nil '.' rest)
        rw [List.splitOn_cons_eq_if_modifyHead, beq_false_of_ne dot, found] at h
        rcases List.mem_cons.mp h with rfl | h
        · refine fun inside => ih (found ▸ List.mem_cons_self) ?_
          exact (List.mem_cons.mp inside).resolve_left (Ne.symm dot)
        · exact ih (found ▸ List.mem_cons_of_mem _ h)

theorem Route.ne_nil {steps : List (List Char)} (route : Route steps) : steps ≠ [] := by
  cases route <;> exact List.cons_ne_nil _ _

theorem Route.of_forall {steps : List (List Char)} (nonempty : steps ≠ [])
    (h : ∀ step ∈ steps, IsStep step) : Route steps := by
  induction steps with
  | nil => exact absurd rfl nonempty
  | cons step rest ih =>
      obtain ⟨first, others⟩ := List.forall_mem_cons.mp h
      by_cases last : rest = []
      · exact last ▸ .last first
      · exact .onwards first (ih last others)

theorem IsName.exists_route {name : List Char} (h : IsName name) :
    ∃ steps, Route steps ∧ name = titled steps := by
  refine ⟨name.splitOn '.', .of_forall (List.splitOn_ne_nil '.' name) fun step hstep => ?_,
    (List.intercalate_splitOn '.').symm⟩
  exact ⟨(h step hstep).1, dot_notMem_of_mem_splitOn hstep, (h step hstep).2⟩

section

variable (extension step : List Char) {rest : List (List Char)}

theorem joined_singleton : joined extension [step] = step ++ extension := by
  rw [joined, List.intercalate_singleton]

theorem joined_cons (nonempty : rest ≠ []) :
    joined extension (step :: rest) = step ++ '/' :: joined extension rest := by
  simp [joined, List.intercalate_cons_of_ne_nil nonempty]

theorem titled_singleton : titled [step] = step := by
  rw [titled, List.intercalate_singleton]

theorem titled_cons (nonempty : rest ≠ []) :
    titled (step :: rest) = step ++ '.' :: titled rest := by
  simp [titled, List.intercalate_cons_of_ne_nil nonempty]

theorem joined_eq_append (steps : List (List Char)) :
    joined extension steps = joined [] steps ++ extension := by
  rw [joined, joined, List.append_nil]

end

namespace Route

variable {steps : List (List Char)}

theorem relative (route : Route steps) (extension : List Char) :
    ¬ Absolute (joined extension steps) := by
  cases route with
  | last h =>
      rw [joined_singleton]
      exact h.relative _
  | onwards h route =>
      rw [joined_cons _ _ route.ne_nil]
      exact h.relative _

theorem undotted (route : Route steps) : '.' ∉ joined [] steps := by
  induction route with
  | last h =>
      rw [joined_singleton, List.append_nil]
      exact h.undotted
  | onwards h route ih =>
      rw [joined_cons _ _ route.ne_nil]
      simpa using ⟨h.undotted, ih⟩

theorem dotted_joined (route : Route steps) : dotted (joined [] steps) = titled steps := by
  induction route with
  | last h => rw [joined_singleton, List.append_nil, dotted_of_whole h.whole, titled_singleton]
  | @onwards step rest h route ih =>
      have behind : dotted (step ++ '/' :: joined [] rest) =
          dotted step ++ '.' :: dotted (joined [] rest) := List.map_append
      rw [joined_cons _ _ route.ne_nil, behind, dotted_of_whole h.whole, ih,
        titled_cons _ route.ne_nil]

end Route

/-! ### Paths of plain names -/

theorem not_open_append {step : List Char} (closed : ¬ Open step) (front : List Char) :
    ¬ Open (front ++ step) := by
  obtain ⟨nonempty, last⟩ := not_or.mp closed
  rintro (empty | slash)
  · exact nonempty (List.append_eq_nil_iff.mp empty).2
  · rw [List.getLast?_append_of_ne_nil _ nonempty] at slash
    exact last slash

theorem push_push {step rest : List Char} (h : IsStep step) (relative : ¬ Absolute rest)
    (path : List Char) : push (push path step) rest = push path (step ++ '/' :: rest) := by
  have first : ¬ Absolute step := List.append_nil step ▸ h.relative []
  by_cases opened : Open path
  · rw [push_of_open first opened, push_of_open (h.relative _) opened,
      push_of_not_open relative (not_open_append h.not_open path), List.append_assoc]
  · rw [push_of_not_open first opened, push_of_not_open (h.relative _) opened, List.append_cons,
      push_of_not_open relative (not_open_append h.not_open _), List.append_assoc]
    simp

theorem segments_append {stem : List Char} (undotted : '.' ∉ stem) {extension rest : List Char}
    {segment : List Char} {later : List (List Char)}
    (found : segments extension rest = segment :: later) :
    segments extension (stem ++ rest) = (stem ++ segment) :: later := by
  induction stem with
  | nil => exact found
  | cons c tail ih =>
      have dot : c ≠ '.' := fun same => undotted (same ▸ List.mem_cons_self)
      have onwards := ih fun inside => undotted (List.mem_cons_of_mem _ inside)
      obtain ⟨segment', later', found', eq⟩ := segments_cons extension dot (tail ++ rest)
      cases found'.symm.trans onwards
      exact eq

namespace Route

variable {steps : List (List Char)}

theorem pathFor_titled (route : Route steps) (root extension : List Char) :
    pathFor root extension (titled steps) = push root (joined extension steps) := by
  induction route generalizing root with
  | @last step h =>
      have only : segments extension (step ++ []) = [step ++ extension] :=
        segments_append h.undotted rfl
      rw [joined_singleton, titled_singleton, pathFor, ← List.append_nil step, only,
        List.append_nil]
      rfl
  | @onwards step rest h route ih =>
      have split : segments extension (step ++ '.' :: titled rest) =
          step :: segments extension (titled rest) := by
        rw [segments_append h.undotted (segments_dot extension (titled rest)), List.append_nil]
      calc pathFor root extension (titled (step :: rest))
          = pathFor (push root step) extension (titled rest) := by
            rw [titled_cons _ route.ne_nil, pathFor, split, List.foldl_cons, pathFor]
        _ = push (push root step) (joined extension rest) := ih _
        _ = push root (joined extension (step :: rest)) := by
            rw [push_push h (route.relative extension), joined_cons _ _ route.ne_nil]

theorem nameFor_pathFor (route : Route steps) (root extension : List Char) :
    nameFor root extension (pathFor root extension (titled steps)) = some (titled steps) := by
  rw [route.pathFor_titled, nameFor_push extension (route.relative extension)]
  exact ⟨joined [] steps, joined_eq_append extension steps, route.dotted_joined.symm⟩

theorem not_idle {extension : List Char} (whole : Whole extension) (route : Route steps) :
    ∀ step ∈ splitSlashes (joined extension steps), isIdle step = false := by
  rw [splitSlashes_eq_splitOn]
  induction route with
  | @last step h =>
      have undivided : '/' ∉ step ++ extension :=
        slash_notMem_of_whole (List.forall_mem_append.mpr ⟨h.whole, whole⟩)
      rw [joined_singleton, List.splitOn_eq_singleton undivided]
      exact List.forall_mem_singleton.mpr (h.not_idle extension)
  | @onwards step rest h route ih =>
      have first : isIdle step = false := List.append_nil step ▸ h.not_idle []
      rw [joined_cons _ _ route.ne_nil,
        List.splitOn_append_cons_self_of_not_mem (slash_notMem_of_whole h.whole)]
      exact List.forall_mem_cons.mpr ⟨first, ih⟩

theorem intercalate_components {extension : List Char} (whole : Whole extension)
    (route : Route steps) :
    ['/'].intercalate (components (joined extension steps)) = joined extension steps := by
  have all : ∀ step ∈ splitSlashes (joined extension steps), (!isIdle step) = true :=
    fun step hstep => by rw [route.not_idle whole step hstep]; rfl
  rw [components, List.filter_eq_self.mpr all, splitSlashes_eq_splitOn, List.intercalate_splitOn]

theorem titled_eq_of_samePath {extension : List Char} (whole : Whole extension) {root : List Char}
    {steps' : List (List Char)} (route : Route steps) (route' : Route steps')
    (same : SamePath (pathFor root extension (titled steps))
      (pathFor root extension (titled steps'))) :
    titled steps = titled steps' := by
  have below := same.steps
  rw [route.pathFor_titled, route'.pathFor_titled, components_push (route.relative extension),
    components_push (route'.relative extension)] at below
  have path : joined extension steps = joined extension steps' := by
    rw [← route.intercalate_components whole, List.append_cancel_left below,
      route'.intercalate_components whole]
  rw [joined_eq_append extension steps, joined_eq_append extension steps'] at path
  rw [← route.dotted_joined, List.append_cancel_right path, route'.dotted_joined]

end Route

/-! ### Views of theme files -/

def views : List Char := "views".toList

theorem isStep_views : IsStep views := by decide

theorem dropDirectory_append {file : List Char} (bare : file.dropWhile isSeparator = file)
    (directory : List Char) : dropDirectory directory (directory ++ '/' :: file) = file := by
  by_cases empty : stripEnds isSeparator directory = []
  · rw [dropDirectory_of_not_inDirectory fun inside => inside.1 empty,
      List.dropWhile_append_of_pos (stripEnds_eq_nil_iff.mp empty)]
    exact bare
  · obtain ⟨after, eq, hafter⟩ := dropWhile_eq_stripEnds_append isSeparator directory
    have trimmed : (directory ++ '/' :: file).dropWhile isSeparator =
        stripEnds isSeparator directory ++ (after ++ '/' :: file) := by
      rw [List.dropWhile_append, eq, if_neg (by simp [empty]), List.append_assoc]
    cases after with
    | nil => exact (dropDirectory_of_below empty rfl trimmed).trans bare
    | cons c after =>
        rw [List.cons_append] at trimmed
        rw [dropDirectory_of_below empty (hafter c List.mem_cons_self) trimmed,
          List.dropWhile_append_of_pos fun d hd => hafter d (List.mem_cons_of_mem _ hd)]
        exact bare

theorem Route.viewName_joined {steps : List (List Char)} (route : Route steps)
    (directory extension : List Char) :
    viewName directory extension (directory ++ '/' :: joined extension (views :: steps)) =
      titled (views :: steps) := by
  have inViews : Route (views :: steps) := .onwards isStep_views route
  have spelled : ∀ extension, joined extension (views :: steps) =
      views ++ '/' :: joined extension steps :=
        fun extension => joined_cons extension views route.ne_nil
  have bare : (joined extension (views :: steps)).dropWhile isSeparator =
      joined extension (views :: steps) := by
    rw [spelled]
    rfl
  have stem : stemOf extension (joined extension (views :: steps)) =
      joined [] (views :: steps) := by
    rw [stemOf, joined_eq_append extension, dropSuffix_append, dropSuffix_of_not_suffix]
    exact fun suffix => inViews.undotted (suffix.subset (by decide))
  rw [viewName_eq, dropDirectory_append bare, stem, underViews_of_below ⟨'/', _, rfl, spelled []⟩,
    inViews.dotted_joined]

theorem samePath_push {directory rest : List Char} (nonempty : directory ≠ [])
    (relative : ¬ Absolute rest) : SamePath (push directory rest) (directory ++ '/' :: rest) := by
  obtain ⟨c, tail, rfl⟩ := List.exists_cons_of_ne_nil nonempty
  refine ⟨(absolute_push relative).trans Iff.rfl, ?_⟩
  rw [components_push relative, components_append_slash]

/-- The path of a file behind a directory leads to the same place however many slashes stand
between. -/
theorem resolve?_push_eq {tree : FileTree} {directory rest : List Char} (nonempty : directory ≠ [])
    (relative : ¬ Absolute rest) :
    tree.resolve? (push directory rest) = tree.resolve? (directory ++ '/' :: rest) := by
  by_cases absolute : Absolute directory
  · obtain ⟨tail, rfl⟩ := List.head?_eq_some_iff.mp absolute
    rw [resolve?_of_absolute (head?_push absolute), resolve?_of_absolute rfl]
  · have absolute' : ¬ Absolute (directory ++ '/' :: rest) := by
      obtain ⟨c, tail, rfl⟩ := List.exists_cons_of_ne_nil nonempty
      exact absolute
    rw [resolve?_push relative, resolve?_of_relative absolute, resolve?_of_relative absolute',
      stepsOf_append_slash, follow_append]

/-- Names and files correspond. The name of plain segments is read back from its path under every
root, and names that share a path are the same. The view of a theme file is named by the steps below
its templates directory, and the path of that view under the directory is the file. -/
theorem names_correspond_to_files {extension : List Char} (whole : Whole extension) :
    (∀ root name, IsName name →
      nameFor root extension (pathFor root extension name) = some name) ∧
    (∀ root first second, IsName first → IsName second →
      SamePath (pathFor root extension first) (pathFor root extension second) → first = second) ∧
    ∀ directory steps, directory ≠ [] → steps ≠ [] → (∀ step ∈ steps, IsStep step) →
      let file := directory ++ '/' :: joined extension (views :: steps)
      let name := titled (views :: steps)
      viewName directory extension file = name ∧
      SamePath (pathFor directory extension name) file ∧
      (directory.getLast? ≠ some '/' → pathFor directory extension name = file) ∧
      ∀ tree : FileTree, tree.resolve? (pathFor directory extension name) = tree.resolve? file := by
  refine ⟨fun root name h => ?_, fun root first second h h' same => ?_,
    fun directory steps nonempty below h => ?_⟩
  · obtain ⟨steps, route, rfl⟩ := h.exists_route
    exact route.nameFor_pathFor root extension
  · obtain ⟨steps, route, rfl⟩ := h.exists_route
    obtain ⟨steps', route', rfl⟩ := h'.exists_route
    exact route.titled_eq_of_samePath whole route' same
  · have route : Route steps := .of_forall below h
    have inViews : Route (views :: steps) := .onwards isStep_views route
    have relative := inViews.relative extension
    intro file name
    have path : pathFor directory extension name =
        push directory (joined extension (views :: steps)) :=
      inViews.pathFor_titled directory extension
    rw [path]
    exact ⟨route.viewName_joined directory extension, samePath_push nonempty relative,
      fun last => push_of_not_open relative (not_or.mpr ⟨nonempty, last⟩),
      fun tree => resolve?_push_eq nonempty relative⟩

/-- The second directory ends in a slash, so the path written out has one slash too many. -/
theorem names_correspond_to_files_header :
    Whole ".blade.html".toList ∧ IsName "partials.header".toList ∧ IsName "partials.footer".toList ∧
      (∀ step ∈ ["single".toList, "post-a".toList], IsStep step) ∧
      nameFor "theme".toList ".blade.html".toList
        (pathFor "theme".toList ".blade.html".toList "partials.header".toList) =
          some "partials.header".toList ∧
      ¬ SamePath (pathFor "theme".toList ".blade.html".toList "partials.header".toList)
        (pathFor "theme".toList ".blade.html".toList "partials.footer".toList) ∧
      viewName "theme".toList ".blade.html".toList
        "theme/views/single/post-a.blade.html".toList = "views.single.post-a".toList ∧
      pathFor "theme".toList ".blade.html".toList "views.single.post-a".toList =
        "theme/views/single/post-a.blade.html".toList ∧
      SamePath (pathFor "theme/".toList ".blade.html".toList "views.single.post-a".toList)
        "theme//views/single/post-a.blade.html".toList := by
  have whole : Whole ".blade.html".toList := by decide
  have header : IsName "partials.header".toList := by decide
  have footer : IsName "partials.footer".toList := by decide
  have steps : ∀ step ∈ ["single".toList, "post-a".toList], IsStep step := by decide
  obtain ⟨readBack, apart, files⟩ := names_correspond_to_files whole
  obtain ⟨named, -, there, -⟩ := files "theme".toList _ (by decide) (by decide) steps
  obtain ⟨-, same, -⟩ := files "theme/".toList _ (by decide) (by decide) steps
  refine ⟨whole, header, footer, steps, readBack _ _ header, fun shared => ?_, named,
    there (by decide), same⟩
  exact absurd (apart _ _ _ header footer shared) (by decide)

end Files

end ThemeTemplates
