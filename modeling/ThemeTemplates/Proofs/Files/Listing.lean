import Mathlib.Data.String.Basic
import ThemeTemplates.Files.Loader
import ThemeTemplates.Proofs.Data.Fields
import ThemeTemplates.Proofs.Files.Paths

/-!
# Listed templates

Which listed templates can be loaded, and which of them share a name. A path without dots and
backslashes comes back from its name; of any other the name is the one of the path respelled, and
the template is there only if some root has a file at that one.
-/

namespace ThemeTemplates

theorem Fields.mem_keys_ofList {α : Type} {settings : List (String × α)} {key : String} :
    key ∈ keys (ofList settings) ↔ ∃ value, (key, value) ∈ settings := by
  unfold keys
  rw [List.mem_map]
  constructor
  · rintro ⟨⟨_, value⟩, h, rfl⟩
    exact ⟨value, mem_of_mem_ofList h⟩
  · rintro ⟨value, h⟩
    have found : (find? (ofList settings) key).isSome := by
      unfold ofList
      rw [find?_overlay, find?_nil, Option.or_none, find?, List.lookup_isSome_iff]
      exact ⟨_, List.mem_reverse.mpr h, beq_self_eq_true key⟩
    obtain ⟨field, hfield, same⟩ := List.lookup_isSome_iff.mp found
    exact ⟨field, hfield, (beq_iff_eq.mp same).symm⟩

namespace FileTree

open Files

variable {tree : FileTree}

/-- What a real tree satisfies: the steps of its paths are names, and no file is a directory. -/
structure Sound (tree : FileTree) : Prop where
  steps : ∀ file ∈ tree.files, ∀ step ∈ file.1,
    step ≠ "" ∧ step ≠ "." ∧ step ≠ ".." ∧ '/' ∉ step.toList
  apart : ∀ file ∈ tree.files, tree.isDirectory file.1 = false

def stepsOf (path : List Char) : List String :=
  (splitSlashes path).map String.ofList

theorem stepsOf_ne_nil (path : List Char) : stepsOf path ≠ [] := by
  simp [stepsOf, splitSlashes_ne_nil]

theorem stepsOf_append_slash (first second : List Char) :
    stepsOf (first ++ '/' :: second) = stepsOf first ++ stepsOf second := by
  unfold stepsOf
  simp only [splitSlashes_eq_splitOn]
  rw [List.splitOn_append_cons_self, List.map_append]

theorem stepsOf_intercalate {file : Segments} (nonempty : file ≠ [])
    (plain : ∀ step ∈ file, '/' ∉ step.toList) :
    stepsOf (String.intercalate "/" file).toList = file := by
  unfold stepsOf
  rw [splitSlashes_eq_splitOn, String.toList_intercalate]
  show ((['/'].intercalate (file.map String.toList)).splitOn '/').map String.ofList = file
  rw [List.splitOn_intercalate '/' (by simpa using plain) (by simpa using nonempty), List.map_map]
  simp [Function.comp_def]

/-! ### Following paths -/

theorem follow_append (here : Segments) (first second : List String) :
    tree.follow here (first ++ second) =
      (tree.follow here first).bind fun there => tree.follow there second := by
  induction first generalizing here with
  | nil => rfl
  | cons step rest ih =>
      simp only [List.cons_append, follow]
      split
      · rfl
      · split
        · exact ih here
        · split
          · split
            · rfl
            · exact ih here.dropLast
          · exact ih (here ++ [step])

theorem follow_of_not_directory {here : Segments} (closed : tree.isDirectory here = false)
    {steps : List String} (nonempty : steps ≠ []) : tree.follow here steps = none := by
  cases steps with
  | nil => exact absurd rfl nonempty
  | cons step rest => simp [follow, closed]

theorem resolve?_of_relative {path : List Char} (relative : path.head? ≠ some '/') :
    tree.resolve? path = tree.follow [] (stepsOf path) := by
  unfold resolve?
  split
  · exact absurd rfl relative
  · rfl

theorem resolve?_of_absolute {path : List Char} (absolute : path.head? = some '/') :
    tree.resolve? path = none := by
  obtain ⟨rest, rfl⟩ := List.head?_eq_some_iff.mp absolute
  rfl

theorem resolve?_nil : tree.resolve? [] = some [] := by
  simp [resolve?, splitSlashes, follow, isDirectory]

theorem resolve?_append_slash {path : List Char} (relative : (path ++ ['/']).head? ≠ some '/')
    {steps : List String} (nonempty : steps ≠ []) :
    ((tree.resolve? (path ++ ['/'])).bind fun here => tree.follow here steps) =
      tree.follow [] (stepsOf path ++ steps) := by
  rw [resolve?_of_relative relative, stepsOf_append_slash, follow_append, follow_append,
    Option.bind_assoc]
  refine congrArg _ (funext fun here => ?_)
  by_cases directory : tree.isDirectory here = true
  · simp [stepsOf, splitSlashes, follow, directory]
  · rw [Bool.not_eq_true] at directory
    rw [follow_of_not_directory directory (stepsOf_ne_nil []),
      follow_of_not_directory directory nonempty]
    rfl

theorem resolve?_push {path segment : List Char} (relative : segment.head? ≠ some '/') :
    tree.resolve? (push path segment) =
      (tree.resolve? path).bind fun here => tree.follow here (stepsOf segment) := by
  by_cases absolute : path.head? = some '/'
  · rw [resolve?_of_absolute absolute, resolve?_of_absolute (head?_push absolute)]
    rfl
  by_cases h : Open path
  · rw [push_of_open relative h]
    rcases h with rfl | slash
    · rw [resolve?_nil, List.nil_append, resolve?_of_relative relative]
      rfl
    · obtain ⟨front, rfl⟩ := List.getLast?_eq_some_iff.mp slash
      rw [resolve?_append_slash absolute (stepsOf_ne_nil segment), List.append_assoc,
        List.singleton_append, ← stepsOf_append_slash, resolve?_of_relative]
      cases front with
      | nil => exact absurd rfl absolute
      | cons c front => exact absolute
  · rw [push_of_not_open relative h, resolve?_of_relative absolute, resolve?_of_relative,
      stepsOf_append_slash, follow_append]
    cases path with
    | nil => exact absurd (.inl rfl) h
    | cons c path => exact absolute

theorem resolve?_foldl_push {segments : List (List Char)}
    (relative : ∀ segment ∈ segments, segment.head? ≠ some '/') (path : List Char) :
    tree.resolve? (segments.foldl push path) =
      (tree.resolve? path).bind fun here => tree.follow here (segments.flatMap stepsOf) := by
  induction segments generalizing path with
  | nil => simp [follow]
  | cons segment rest ih =>
      rw [List.foldl_cons, ih fun segment h => relative segment (List.mem_cons_of_mem _ h),
        resolve?_push (relative segment List.mem_cons_self), Option.bind_assoc]
      simp only [List.flatMap_cons, follow_append]

theorem isDirectory_of_mem {here : Segments} {step : String} {rest : Segments} {content : ByteArray}
    (h : (here ++ step :: rest, content) ∈ tree.files) : tree.isDirectory here = true := by
  unfold isDirectory
  refine Bool.or_eq_true_iff.mpr (.inr (List.any_eq_true.mpr ⟨_, h, ?_⟩))
  simp

theorem Sound.stepsOf_file (sound : tree.Sound) {here file : Segments} {content : ByteArray}
    (h : (here ++ file, content) ∈ tree.files) (nonempty : file ≠ []) :
    stepsOf (String.intercalate "/" file).toList = file :=
  stepsOf_intercalate nonempty fun step hstep =>
    (sound.steps _ h step (List.mem_append_right _ hstep)).2.2.2

theorem Sound.follow_file (sound : tree.Sound) {here file : Segments} {content : ByteArray}
    (h : (here ++ file, content) ∈ tree.files) : tree.follow here file = some (here ++ file) := by
  induction file generalizing here with
  | nil => simp [follow]
  | cons step rest ih =>
      have isName := sound.steps _ h step (by simp)
      have onwards : tree.follow (here ++ [step]) rest = some (here ++ [step] ++ rest) :=
        ih (by simpa using h)
      simp [follow, isDirectory_of_mem h, isName, onwards]

/-- The written path of a file from a directory does not start with a slash. -/
theorem Sound.relative (sound : tree.Sound) {here file : Segments} {content : ByteArray}
    (h : (here ++ file, content) ∈ tree.files) (nonempty : file ≠ []) :
    (String.intercalate "/" file).toList.head? ≠ some '/' := by
  intro slash
  obtain ⟨rest, written⟩ := List.head?_eq_some_iff.mp slash
  have steps : stepsOf ('/' :: rest) = file := by
    rw [← written]
    exact sound.stepsOf_file h nonempty
  have first : "" ∈ file := steps ▸ List.mem_cons_self
  exact (sound.steps _ h "" (List.mem_append_right _ first)).1 rfl

theorem read?_isSome_iff {path : Segments} :
    (tree.read? path).isSome ↔ ∃ content, (path, content) ∈ tree.files := by
  unfold read?
  rw [List.lookup_isSome_iff]
  constructor
  · rintro ⟨⟨path', content⟩, h, same⟩
    exact ⟨content, beq_iff_eq.mp same ▸ h⟩
  · rintro ⟨content, h⟩
    exact ⟨_, h, beq_self_eq_true path⟩

theorem mem_of_read? {path : Segments} {content : ByteArray} (h : tree.read? path = some content) :
    (path, content) ∈ tree.files := by
  obtain ⟨before, after, eq, -⟩ := List.lookup_eq_some_iff.mp h
  rw [eq]
  simp

end FileTree

namespace FileLoader

open Files FileTree

variable {loader : FileLoader}

/-- A root has a template file: its path from there is the stem and then the extension. -/
def Holds (loader : FileLoader) (root : String) (stem : List Char) : Prop :=
  ∃ directory file content, loader.tree.resolve? root.toList = some directory ∧ file ≠ [] ∧
    (directory ++ file, content) ∈ loader.tree.files ∧
    (String.intercalate "/" file).toList = stem ++ loader.extension.toList

/-- A root has a file at the end of a path from there. -/
def Reaches (loader : FileLoader) (root : String) (path : List Char) : Prop :=
  ∃ directory file content, loader.tree.resolve? root.toList = some directory ∧
    loader.tree.follow directory (stepsOf path) = some file ∧ (file, content) ∈ loader.tree.files

def nameOf (stem : List Char) : String :=
  String.ofList (dotted stem)

def nameAt? (loader : FileLoader) (root : String) (path : List Char) : Option (List Char) :=
  nameFor root.toList loader.extension.toList (push root.toList path)

theorem mem_filesUnder {tree : FileTree} {directory file : Segments} :
    file ∈ tree.filesUnder directory ↔ ∃ content, (directory ++ file, content) ∈ tree.files := by
  unfold filesUnder
  rw [List.mem_filterMap]
  constructor
  · rintro ⟨⟨path, content⟩, h, rest⟩
    exact ⟨content, List.isPrefixOf?_eq_some_iff_append_eq.mp rest ▸ h⟩
  · rintro ⟨content, h⟩
    exact ⟨_, h, List.isPrefixOf?_eq_some_iff_append_eq.mpr rfl⟩

theorem mem_namesUnder (sound : loader.tree.Sound) {root name : String} :
    name ∈ loader.namesUnder root ↔ ∃ stem, loader.Holds root stem ∧ name = nameOf stem := by
  unfold namesUnder
  cases resolved : loader.tree.resolve? root.toList with
  | none => simp [Holds, resolved]
  | some directory =>
      show name ∈ (if !loader.tree.isDirectory directory then [] else _) ↔ _
      constructor
      · intro h
        split at h
        · cases h
        · next open_ =>
            obtain ⟨file, hfile, named⟩ := List.mem_filterMap.mp h
            obtain ⟨content, there⟩ := mem_filesUnder.mp hfile
            have nonempty : file ≠ [] := by
              rintro rfl
              have closed := sound.apart _ there
              rw [List.append_nil] at closed
              simp [closed] at open_
            obtain ⟨name', read, rfl⟩ := Option.map_eq_some_iff.mp named
            obtain ⟨stem, written, rfl⟩ := (nameFor_push _ (sound.relative there nonempty)).mp read
            exact ⟨stem, ⟨directory, file, content, resolved, nonempty, there, written⟩, rfl⟩
      · rintro ⟨stem, ⟨directory', file, content, resolved', nonempty, there, written⟩, rfl⟩
        obtain rfl : directory = directory' := Option.some.inj (resolved.symm.trans resolved')
        obtain ⟨step, rest, rfl⟩ := List.exists_cons_of_ne_nil nonempty
        rw [isDirectory_of_mem there, Bool.not_true, if_neg Bool.false_ne_true]
        refine List.mem_filterMap.mpr ⟨step :: rest, mem_filesUnder.mpr ⟨content, there⟩, ?_⟩
        refine Option.map_eq_some_iff.mpr ⟨dotted stem, ?_, rfl⟩
        exact (nameFor_push _ (sound.relative there nonempty)).mpr ⟨stem, written, rfl⟩

theorem mem_names (sound : loader.tree.Sound) {name : String} :
    name ∈ loader.names ↔
      ∃ root ∈ loader.roots, ∃ stem, loader.Holds root stem ∧ name = nameOf stem := by
  unfold names
  rw [Fields.mem_keys_ofList]
  simp [mem_namesUnder sound]

/-! ### Finding listed templates -/

/-- The template of a path is found, under its name, at the path respelled. -/
def Findable (loader : FileLoader) (stem : List Char) : Prop :=
  (Open (respelled stem) → loader.extension.toList.head? ≠ some '/') ∧
    ∃ root ∈ loader.roots, loader.Reaches root (respelled stem ++ loader.extension.toList)

theorem readAt?_pathFor_nameOf {root : String} {stem : List Char} :
    (loader.tree.readAt? (loader.pathFor root (nameOf stem))).isSome ↔
      (Open (respelled stem) → loader.extension.toList.head? ≠ some '/') ∧
        loader.Reaches root (respelled stem ++ loader.extension.toList) := by
  unfold readAt? pathFor nameOf Files.pathFor
  rw [String.toList_ofList]
  by_cases detached : Open (respelled stem) ∧ loader.extension.toList.head? = some '/'
  · obtain ⟨segment, h, absolute⟩ := (exists_absolute_segment_dotted_iff _ stem).mpr detached
    rw [resolve?_of_absolute (head?_foldl_push h absolute _)]
    simp [detached]
  · have relative : ∀ segment ∈ segments loader.extension.toList (dotted stem),
        segment.head? ≠ some '/' := fun segment h absolute =>
      detached ((exists_absolute_segment_dotted_iff _ stem).mp ⟨segment, h, absolute⟩)
    have steps : (segments loader.extension.toList (dotted stem)).flatMap stepsOf =
        stepsOf (respelled stem ++ loader.extension.toList) := by
      unfold stepsOf
      rw [← flatMap_splitSlashes_dotted, List.map_flatMap]
    rw [resolve?_foldl_push relative, steps, and_iff_right (not_and.mp detached)]
    unfold Reaches
    cases loader.tree.resolve? root.toList with
    | none => simp
    | some directory =>
        cases followed : loader.tree.follow directory
            (stepsOf (respelled stem ++ loader.extension.toList)) with
        | none => simp [followed]
        | some file => simp [followed, read?_isSome_iff]

theorem find?_nameOf_isSome_iff {stem : List Char} :
    (loader.find? (nameOf stem)).isSome ↔ loader.Findable stem := by
  unfold find?
  rw [List.findSome?_isSome_iff]
  simp only [Option.isSome_map, readAt?_pathFor_nameOf]
  constructor
  · rintro ⟨root, hroot, attached, reached⟩
    exact ⟨attached, root, hroot, reached⟩
  · rintro ⟨attached, root, hroot, reached⟩
    exact ⟨root, hroot, attached, reached⟩

theorem Holds.reaches (sound : loader.tree.Sound) {root : String} {stem : List Char}
    (h : loader.Holds root stem) : loader.Reaches root (stem ++ loader.extension.toList) := by
  obtain ⟨directory, file, content, resolved, nonempty, there, written⟩ := h
  refine ⟨directory, directory ++ file, content, resolved, ?_, there⟩
  rw [← written, sound.stepsOf_file there nonempty]
  exact sound.follow_file there

/-- The extension of a file that starts with a slash has a step in front of it. -/
theorem Holds.attached (sound : loader.tree.Sound) {root : String} {stem : List Char}
    (h : loader.Holds root stem) (open_ : Open stem) :
      loader.extension.toList.head? ≠ some '/' := by
  obtain ⟨directory, file, content, -, nonempty, there, written⟩ := h
  intro slash
  rcases open_ with rfl | ended
  · have relative := sound.relative there nonempty
    rw [written] at relative
    exact relative slash
  · obtain ⟨front, rfl⟩ := List.getLast?_eq_some_iff.mp ended
    obtain ⟨rest, eq⟩ := List.head?_eq_some_iff.mp slash
    have steps := sound.stepsOf_file there nonempty
    rw [written, eq, List.append_assoc, List.singleton_append, stepsOf_append_slash] at steps
    have first : "" ∈ file := steps ▸ List.mem_append_right _ List.mem_cons_self
    exact (sound.steps _ there "" (List.mem_append_right _ first)).1 rfl

/-- A template whose path has no dots and backslashes is found under its name. -/
theorem Holds.findable (sound : loader.tree.Sound) {root : String} {stem : List Char}
    (hroot : root ∈ loader.roots) (h : loader.Holds root stem) (dots : '.' ∉ stem)
    (backslashes : '\\' ∉ stem) : loader.Findable stem := by
  unfold Findable
  rw [respelled_eq_self dots backslashes]
  exact ⟨h.attached sound, root, hroot, h.reaches sound⟩

theorem mem_of_find? {template : String} {path : List Char} {content : ByteArray}
    (h : loader.find? template = some (path, content)) :
    ∃ file, (file, content) ∈ loader.tree.files := by
  obtain ⟨root, -, found⟩ := List.exists_of_findSome?_eq_some h
  obtain ⟨content', read, same⟩ := Option.map_eq_some_iff.mp found
  cases same
  obtain ⟨file, -, read⟩ := Option.bind_eq_some_iff.mp read
  exact ⟨file, mem_of_read? read⟩

/-- Where all files are readable, a template is located exactly if it can be loaded. -/
theorem loads_iff (readable : ∀ file ∈ loader.tree.files, (String.fromUTF8? file.2).isSome)
    {template : String} :
    ((loader.locate template).isSome ∧ ∃ source, loader.load template = .ok (some source)) ↔
      (loader.find? template).isSome := by
  unfold locate load
  rw [Option.isSome_map]
  cases found : loader.find? template with
  | none => simp
  | some file =>
      obtain ⟨path, content⟩ := file
      obtain ⟨place, there⟩ := mem_of_find? found
      obtain ⟨source, decoded⟩ := Option.isSome_iff_exists.mp (readable _ there)
      simp only at decoded
      simp [decoded]

theorem Holds.nameAt? (sound : loader.tree.Sound) {root : String} {stem : List Char}
    (h : loader.Holds root stem) :
    loader.nameAt? root (stem ++ loader.extension.toList) = some (dotted stem) := by
  obtain ⟨directory, file, content, -, nonempty, there, written⟩ := h
  have relative := sound.relative there nonempty
  rw [written] at relative
  exact (nameFor_push _ relative).mpr ⟨stem, rfl, rfl⟩

/-- Every listed template can be loaded exactly if each one with a dot or a backslash in its path,
apart from the extension, has a file at the path respelled; and two paths from a root share a name
exactly if they are respelled alike. -/
theorem listed_load_iff (loader : FileLoader) (sound : loader.tree.Sound)
    (readable : ∀ file ∈ loader.tree.files, (String.fromUTF8? file.2).isSome) :
    ((∀ name ∈ loader.names, (loader.locate name).isSome ∧
        ∃ source, loader.load name = .ok (some source)) ↔
      ∀ root ∈ loader.roots, ∀ stem, loader.Holds root stem → '.' ∈ stem ∨ '\\' ∈ stem →
        loader.Findable stem) ∧
    ∀ root first second, loader.Holds root first → loader.Holds root second →
      (loader.nameAt? root (first ++ loader.extension.toList) =
          loader.nameAt? root (second ++ loader.extension.toList) ↔
        respelled first = respelled second) := by
  refine ⟨⟨fun listed root hroot stem holds _ => ?_, fun hidden name hname => ?_⟩,
    fun root first second holds holds' => ?_⟩
  · have found := listed (nameOf stem) ((mem_names sound).mpr ⟨root, hroot, stem, holds, rfl⟩)
    exact find?_nameOf_isSome_iff.mp ((loads_iff readable).mp found)
  · obtain ⟨root, hroot, stem, holds, rfl⟩ := (mem_names sound).mp hname
    refine (loads_iff readable).mpr (find?_nameOf_isSome_iff.mpr ?_)
    by_cases dots : '.' ∈ stem
    · exact hidden root hroot stem holds (.inl dots)
    · by_cases backslashes : '\\' ∈ stem
      · exact hidden root hroot stem holds (.inr backslashes)
      · exact holds.findable sound hroot dots backslashes
  · rw [holds.nameAt? sound, holds'.nameAt? sound, Option.some.injEq, dotted_eq_iff]

/-- A file whose name has a dot in front of the extension, and one where that name leads to. -/
def sharedName : FileLoader where
  tree :=
    { files := [(["c", "a.b.blade.html"], "x".toUTF8), (["c", "a", "b.blade.html"], "y".toUTF8)] }
  roots := ["c"]
  extension := ".blade.html"

theorem sharedName_sound : sharedName.tree.Sound where
  steps := by decide +kernel
  apart := by decide +kernel

theorem sharedName_loads_other : sharedName.Findable "a.b".toList ∧
    sharedName.nameAt? "c" "a.b.blade.html".toList =
      sharedName.nameAt? "c" "a/b.blade.html".toList ∧
    sharedName.load "a.b" = .ok (some "y") := by
  have readable : ∀ file ∈ sharedName.tree.files, (String.fromUTF8? file.2).isSome := by
    decide +kernel
  have loads : sharedName.load "a.b" = .ok (some "y") := rfl
  have dotted : sharedName.Holds "c" "a.b".toList :=
    ⟨["c"], ["a.b.blade.html"], "x".toUTF8, rfl, List.cons_ne_nil _ _, List.mem_cons_self, rfl⟩
  have slashed : sharedName.Holds "c" "a/b".toList :=
    ⟨["c"], ["a", "b.blade.html"], "y".toUTF8, rfl, List.cons_ne_nil _ _,
      List.mem_cons_of_mem _ List.mem_cons_self, rfl⟩
  obtain ⟨listed, shared⟩ := listed_load_iff sharedName sharedName_sound readable
  refine ⟨listed.mp ?_ "c" List.mem_cons_self _ dotted (.inl (by decide)), ?_, loads⟩
  · have names : sharedName.names = ["a.b"] := by decide +kernel
    intro name hname
    rw [names, List.mem_singleton] at hname
    subst hname
    exact ⟨by decide +kernel, _, loads⟩
  · exact (shared "c" _ _ dotted slashed).mpr rfl

def dottedFile : FileLoader where
  tree := { files := [(["c", "a.b.blade.html"], "x".toUTF8)] }
  roots := ["c"]
  extension := ".blade.html"

theorem dottedFile_is_hidden : dottedFile.names = ["a.b"] ∧ dottedFile.locate "a.b" = none ∧
    dottedFile.load "a.b" = .ok none :=
  ⟨by decide +kernel, by decide +kernel, rfl⟩

end FileLoader

end ThemeTemplates
