import ThemeTemplates.Engine
import ThemeTemplates.Proofs.Files.Listing

/-!
# Paths beneath a root

Where the path of a template leads. A segment of the name that starts with a slash takes the place
of the root, and a double dot, which only the extension can bring in, climbs. Every other name leads
from the root downwards, and the file that is loaded for it lies there.
-/

namespace ThemeTemplates

namespace Files

open FileTree

/-- A path that starts anew, from the root of all files. -/
abbrev Absolute (path : List Char) : Prop :=
  path.head? = some '/'

def isIdle (step : List Char) : Bool :=
  step == [] || step == ['.']

def components (path : List Char) : List (List Char) :=
  (splitSlashes path).filter (!isIdle ·)

def climb : List Char := ['.', '.']

/-- A path is a root followed only by steps that lead downwards. -/
structure Beneath (root path : List Char) : Prop where
  start : Absolute path ↔ Absolute root
  below : ∃ below, components path = components root ++ below ∧ climb ∉ below

/-- A segment of a name takes the place of the root. -/
def Replaces (extension name : List Char) : Prop :=
  ∃ segment ∈ segments extension name, Absolute segment

/-- A step of a name, or of the extension behind it, leads upwards. -/
def Climbs (extension name : List Char) : Prop :=
  ∃ segment ∈ segments extension name, climb ∈ splitSlashes segment

/-! ### Steps of paths -/

theorem components_append_slash (first second : List Char) :
    components (first ++ '/' :: second) = components first ++ components second := by
  unfold components
  simp only [splitSlashes_eq_splitOn]
  rw [List.splitOn_append_cons_self, List.filter_append]

theorem components_nil : components [] = [] := rfl

theorem components_push {path segment : List Char} (relative : ¬ Absolute segment) :
    components (push path segment) = components path ++ components segment := by
  by_cases h : Open path
  · rw [push_of_open relative h]
    rcases h with rfl | slash
    · rfl
    · obtain ⟨front, rfl⟩ := List.getLast?_eq_some_iff.mp slash
      rw [List.append_assoc, List.singleton_append, components_append_slash,
        components_append_slash, components_nil, List.append_nil]
  · rw [push_of_not_open relative h, components_append_slash]

theorem absolute_push {path segment : List Char} (relative : ¬ Absolute segment) :
    Absolute (push path segment) ↔ Absolute path := by
  refine ⟨fun absolute => ?_, head?_push⟩
  cases path with
  | nil =>
      rw [push_of_open relative (.inl rfl)] at absolute
      exact absurd absolute relative
  | cons c rest =>
      by_cases h : Open (c :: rest)
      · rwa [push_of_open relative h] at absolute
      · rwa [push_of_not_open relative h] at absolute

theorem components_foldl_push {segments : List (List Char)}
    (relative : ∀ segment ∈ segments, ¬ Absolute segment) (path : List Char) :
    components (segments.foldl push path) = components path ++ segments.flatMap components ∧
      (Absolute (segments.foldl push path) ↔ Absolute path) := by
  induction segments generalizing path with
  | nil => simp
  | cons segment rest ih =>
      have first := relative segment List.mem_cons_self
      obtain ⟨steps, start⟩ :=
        ih (fun s h => relative s (List.mem_cons_of_mem _ h)) (push path segment)
      rw [List.foldl_cons, steps, start, components_push first, absolute_push first,
        List.flatMap_cons, List.append_assoc]
      exact ⟨rfl, Iff.rfl⟩

theorem climb_mem_components {segment : List Char} :
    climb ∈ components segment ↔ climb ∈ splitSlashes segment :=
  List.mem_filter.trans (and_iff_left rfl)

/-- Behind a segment that starts with a slash nothing of what was in front of it is left. -/
theorem foldl_push_of_absolute {segments : List (List Char)} {segment : List Char}
    (h : segment ∈ segments) (absolute : Absolute segment) (first second : List Char) :
    segments.foldl push first = segments.foldl push second := by
  obtain ⟨before, after, rfl⟩ := List.append_of_mem h
  obtain ⟨rest, rfl⟩ := List.head?_eq_some_iff.mp absolute
  simp only [List.foldl_append, List.foldl_cons]
  rfl

theorem beneath_pathFor {extension name : List Char} (kept : ¬ Replaces extension name)
    (root : List Char) : Beneath root (pathFor root extension name) ↔ ¬ Climbs extension name := by
  have relative : ∀ segment ∈ segments extension name, ¬ Absolute segment :=
    fun segment h absolute => kept ⟨segment, h, absolute⟩
  obtain ⟨steps, start⟩ := components_foldl_push relative root
  have climbs : climb ∈ (segments extension name).flatMap components ↔ Climbs extension name := by
    simp only [List.mem_flatMap, climb_mem_components, Climbs]
  rw [← climbs]
  constructor
  · rintro ⟨-, below, same, descends⟩
    rwa [List.append_cancel_left (steps.symm.trans same)]
  · exact fun descends => ⟨start, _, steps, descends⟩

/-- Under a relative root, a segment that starts with a slash always leads out. -/
theorem not_beneath_of_replaces {root extension name : List Char} (relative : ¬ Absolute root)
    (replaces : Replaces extension name) : ¬ Beneath root (pathFor root extension name) := by
  obtain ⟨segment, h, absolute⟩ := replaces
  exact fun beneath => relative (beneath.start.mp (head?_foldl_push h absolute root))

/-! ### Names that lead out -/

theorem infix_append_dot {stem : List Char} (plain : '/' ∉ stem) (rest : List Char) :
    ['.', '/'] <:+: stem ++ '.' :: rest ↔ Absolute rest ∨ ['.', '/'] <:+: rest := by
  induction stem with
  | nil =>
      rw [List.nil_append, List.infix_cons_iff, List.cons_prefix_cons]
      refine or_congr_left ?_
      cases rest <;> simp [Absolute, eq_comm]
  | cons c stem ih =>
      have onwards := ih fun slash => plain (List.mem_cons_of_mem _ slash)
      rw [List.cons_append, List.infix_cons_iff, List.cons_prefix_cons]
      refine (or_iff_right ?_).trans onwards
      rintro ⟨-, slash⟩
      cases stem with
      | nil => simp at slash
      | cons d stem =>
          obtain ⟨rfl, -⟩ := List.cons_prefix_cons.mp slash
          exact plain (by simp)

/-- Behind a dot a segment starts, so a slash there makes it one that starts with a slash. -/
theorem exists_later_absolute_iff {extension : List Char} (plain : '/' ∉ extension)
    (name : List Char) :
    (∃ segment ∈ (segments extension name).tail, Absolute segment) ↔ ['.', '/'] <:+: name := by
  have noSlash : ¬ Absolute extension := fun slash => plain (List.mem_of_head? slash)
  induction name with
  | nil => simp [segments]
  | cons c rest ih =>
      by_cases dot : c = '.'
      · subst dot
        have first : (∃ segment ∈ segments extension rest, Absolute segment) ↔
            rest.head? = some '/' ∨ ∃ segment ∈ (segments extension rest).tail,
            Absolute segment := by
          cases rest with
          | nil => simpa [segments] using noSlash
          | cons d rest =>
              by_cases dot : d = '.'
              · subst dot
                simp [segments_dot, Absolute]
              · obtain ⟨segment, later, -, eq⟩ := segments_cons extension dot rest
                simp [eq, Absolute]
        rw [segments_dot, List.tail_cons, first]
        exact (or_congr_right ih).trans (infix_append_dot List.not_mem_nil rest).symm
      · obtain ⟨segment, later, found, eq⟩ := segments_cons extension dot rest
        rw [found, List.tail_cons] at ih
        rw [eq, List.tail_cons, List.infix_cons_iff, List.cons_prefix_cons]
        simpa [Ne.symm dot] using ih

theorem replaces_iff {extension : List Char} (plain : '/' ∉ extension) (name : List Char) :
    Replaces extension name ↔ Absolute name ∨ ['.', '/'] <:+: name := by
  have noSlash : ¬ Absolute extension := fun slash => plain (List.mem_of_head? slash)
  rw [← exists_later_absolute_iff plain, Replaces]
  cases name with
  | nil => simp [segments, Absolute, noSlash]
  | cons c rest =>
      by_cases dot : c = '.'
      · subst dot
        simp [segments_dot, Absolute]
      · obtain ⟨segment, later, -, eq⟩ := segments_cons extension dot rest
        simp [eq, Absolute]

theorem climb_mem_splitSlashes {extension stem : List Char} (plain : '/' ∉ extension)
    (undotted : '.' ∉ stem) (h : climb ∈ splitSlashes (stem ++ extension)) : extension = climb := by
  induction stem with
  | nil =>
      rw [List.nil_append, splitSlashes_eq_splitOn, List.splitOn_eq_singleton plain] at h
      exact (List.mem_singleton.mp h).symm
  | cons c rest ih =>
      have undottedRest : '.' ∉ rest := fun dot => undotted (List.mem_cons_of_mem _ dot)
      by_cases slash : c = '/'
      · subst slash
        rw [List.cons_append, splitSlashes_slash] at h
        exact ih undottedRest ((List.mem_cons.mp h).resolve_left nofun)
      · obtain ⟨step, later, found, eq⟩ := splitSlashes_cons slash (rest ++ extension)
        rw [List.cons_append, eq] at h
        rcases List.mem_cons.mp h with same | h
        · exact absurd ((List.cons.inj same).1 ▸ List.mem_cons_self) undotted
        · exact ih undottedRest (found ▸ List.mem_cons_of_mem _ h)

theorem not_climbs {extension : List Char} (plain : '/' ∉ extension) (level : extension ≠ climb)
    (name : List Char) : ¬ Climbs extension name := by
  rintro ⟨segment, h, climbs⟩
  have whole : climb ∈ (segments extension name).flatMap splitSlashes :=
    List.mem_flatMap.mpr ⟨segment, h, climbs⟩
  rw [flatMap_splitSlashes_segments] at whole
  refine level (climb_mem_splitSlashes plain (fun dot => ?_) whole)
  obtain ⟨c, -, same⟩ := List.mem_map.mp dot
  split at same
  · cases same
  · next other => exact other (beq_iff_eq.mpr same)

end Files

namespace FileTree

open Files

variable {tree : FileTree}

theorem follow_descends {here there : Segments} {steps : List String} (level : ".." ∉ steps)
    (followed : tree.follow here steps = some there) : ∃ below, there = here ++ below := by
  induction steps generalizing here with
  | nil => exact ⟨[], by simpa [follow, eq_comm] using followed⟩
  | cons step rest ih =>
      have levelRest : ".." ∉ rest := fun climbs => level (List.mem_cons_of_mem _ climbs)
      have onwards : step ≠ ".." := fun climbs => level (climbs ▸ List.mem_cons_self)
      unfold follow at followed
      split at followed
      · cases followed
      split at followed
      · exact ih levelRest followed
      split at followed
      · next climbs => exact absurd (beq_iff_eq.mp climbs) onwards
      · obtain ⟨below, rfl⟩ := ih levelRest followed
        exact ⟨step :: below, by simp⟩

end FileTree

namespace FileLoader

open Files FileTree

variable {loader : FileLoader}

/-- The path of a template leads out of the roots, or climbs on its way. -/
def LeadsOut (loader : FileLoader) (name : String) : Prop :=
  Replaces loader.extension.toList name.toList ∨ Climbs loader.extension.toList name.toList

def postTypeName (type : String) : String :=
  "partials.post-type." ++ type

theorem leadsOut_iff (plain : '/' ∉ loader.extension.toList)
    (level : loader.extension.toList ≠ climb) (name : String) :
    loader.LeadsOut name ↔ Absolute name.toList ∨ ['.', '/'] <:+: name.toList := by
  unfold LeadsOut
  rw [replaces_iff plain, or_iff_left (not_climbs plain level _)]

/-- The file that is read for a template lies below the directory that a root leads to. -/
theorem find?_below {name : String} (kept : ¬ loader.LeadsOut name) {path : List Char}
    {content : ByteArray} (found : loader.find? name = some (path, content)) :
    ∃ root ∈ loader.roots, ∃ directory below, path = loader.pathFor root name ∧
      loader.tree.resolve? root.toList = some directory ∧
      loader.tree.read? (directory ++ below) = some content := by
  obtain ⟨stays, level⟩ := not_or.mp kept
  have relative : ∀ segment ∈ segments loader.extension.toList name.toList, ¬ Absolute segment :=
    fun segment h absolute => stays ⟨segment, h, absolute⟩
  have steps : ".." ∉ (segments loader.extension.toList name.toList).flatMap stepsOf := by
    intro h
    obtain ⟨segment, hsegment, h⟩ := List.mem_flatMap.mp h
    obtain ⟨step, hstep, same⟩ := List.mem_map.mp h
    have climbs : step = climb := String.ofList_injective same
    exact level ⟨segment, hsegment, climbs ▸ hstep⟩
  obtain ⟨root, hroot, found⟩ := List.exists_of_findSome?_eq_some found
  obtain ⟨content', read, same⟩ := Option.map_eq_some_iff.mp found
  cases same
  obtain ⟨file, resolved, read⟩ := Option.bind_eq_some_iff.mp read
  unfold pathFor Files.pathFor at resolved
  rw [resolve?_foldl_push relative] at resolved
  obtain ⟨directory, led, followed⟩ := Option.bind_eq_some_iff.mp resolved
  obtain ⟨below, rfl⟩ := follow_descends steps followed
  exact ⟨root, hroot, directory, below, rfl, led, read⟩

/-- The path of a template stays beneath every root exactly if no segment of its name starts with a
slash and no step leads upwards. A segment that starts with a slash takes the place of whatever root
there is; where none does, the file that is read lies below the directory of a root. With an
ordinary extension the names that lead out are those with a slash at the start or behind a dot, and
the types of posts whose partials lead out are just such names. -/
theorem path_beneath_iff (loader : FileLoader) (name : String) :
    ((∀ root : String, Beneath root.toList (loader.pathFor root name)) ↔ ¬ loader.LeadsOut name) ∧
    (∀ root : String, ¬ Absolute root.toList →
      (Beneath root.toList (loader.pathFor root name) ↔ ¬ loader.LeadsOut name)) ∧
    (Replaces loader.extension.toList name.toList →
      ∀ root other, loader.pathFor root name = loader.pathFor other name) ∧
    (¬ loader.LeadsOut name → ∀ path content, loader.find? name = some (path, content) →
      ∃ root ∈ loader.roots, ∃ directory below, path = loader.pathFor root name ∧
        loader.tree.resolve? root.toList = some directory ∧
        loader.tree.read? (directory ++ below) = some content) ∧
    ('/' ∉ loader.extension.toList → loader.extension.toList ≠ climb →
      (loader.LeadsOut name ↔ Absolute name.toList ∨ ['.', '/'] <:+: name.toList) ∧
      ∀ type, loader.LeadsOut (postTypeName type) ↔
        Absolute type.toList ∨ ['.', '/'] <:+: type.toList) := by
  have pointwise : ∀ root : String, ¬ Absolute root.toList →
      (Beneath root.toList (loader.pathFor root name) ↔ ¬ loader.LeadsOut name) := by
    intro root relative
    by_cases replaces : Replaces loader.extension.toList name.toList
    · exact iff_of_false (not_beneath_of_replaces relative replaces) (not_not.mpr (.inl replaces))
    · rw [LeadsOut, or_iff_right replaces]
      exact beneath_pathFor replaces _
  refine ⟨⟨fun beneath => ?_, fun kept root => ?_⟩, pointwise, ?_,
    fun kept path content found => ?_, fun plain level =>
      ⟨leadsOut_iff plain level name, fun type => ?_⟩⟩
  · exact (pointwise "" nofun).mp (beneath "")
  · obtain ⟨stays, level⟩ := not_or.mp kept
    exact (beneath_pathFor stays _).mpr level
  · rintro ⟨segment, h, absolute⟩ root other
    exact foldl_push_of_absolute h absolute _ _
  · exact find?_below kept found
  · have named : (postTypeName type).toList = "partials.post-type".toList ++ '.' :: type.toList :=
      String.toList_append
    rw [leadsOut_iff plain level, named, infix_append_dot (by decide)]
    exact or_iff_right nofun

/-- A theme with a view for single posts and a partial for one type of them. -/
def pageTheme : FileLoader where
  tree :=
    { files := [(["c", "views", "single.blade.html"], "@posttypepartial".toUTF8),
        (["c", "partials", "post-type", "page.blade.html"], "x".toUTF8)] }
  roots := ["c"]
  extension := ".blade.html"

theorem pageTheme_partials_beneath :
    ¬ pageTheme.LeadsOut (postTypeName "page") ∧
    Beneath "c".toList (pageTheme.pathFor "c" (postTypeName "page")) ∧
    (∃ root ∈ pageTheme.roots, ∃ directory below,
      pageTheme.tree.resolve? root.toList = some directory ∧
      pageTheme.tree.read? (directory ++ below) = some "x".toUTF8) ∧
    pageTheme.LeadsOut (postTypeName "/etc/secret") ∧
    ¬ Beneath "c".toList (pageTheme.pathFor "c" (postTypeName "/etc/secret")) := by
  have plain : '/' ∉ pageTheme.extension.toList := by decide
  have level : pageTheme.extension.toList ≠ climb := by decide
  obtain ⟨-, pagePointwise, -, pageRead, pageNames⟩ :=
    path_beneath_iff pageTheme (postTypeName "page")
  obtain ⟨-, secretPointwise, -, -, secretNames⟩ :=
    path_beneath_iff pageTheme (postTypeName "/etc/secret")
  have kept : ¬ pageTheme.LeadsOut (postTypeName "page") :=
    ((pageNames plain level).2 "page").not.mpr (by decide)
  have leads : pageTheme.LeadsOut (postTypeName "/etc/secret") :=
    ((secretNames plain level).2 "/etc/secret").mpr (.inl rfl)
  refine ⟨kept, (pagePointwise "c" (by decide)).mpr kept, ?_, leads, fun beneath =>
    (secretPointwise "c" (by decide)).mp beneath leads⟩
  obtain ⟨root, hroot, directory, below, -, led, read⟩ :=
    pageRead kept "c/partials/post-type/page.blade.html".toList "x".toUTF8 rfl
  exact ⟨root, hroot, directory, below, led, read⟩

def pageSite (type : String) : Engine Unit where
  library := { loader := pageTheme.toLoader, directives := Registry.builtin }
  host := { currentPost := fun _ => .record [("post_type", .text type)] }
  hostState := ()

/-- The type of a post reaches the loader as it is and leads it to a file outside all roots. -/
theorem secretPost_leaves_root :
    (match ((pageSite "/etc/secret").renderView "single" []).1 with
      | .error (.templateNotFound name) => some name
      | _ => none) = some (postTypeName "/etc/secret") ∧
    pageTheme.pathFor "c" (postTypeName "/etc/secret") = "/etc/secret.blade.html".toList := by
  constructor
  · decide +kernel
  · rfl

end FileLoader

end ThemeTemplates
