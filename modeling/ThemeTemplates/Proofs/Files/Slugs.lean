import Mathlib.Data.List.Basic
import Mathlib.Data.List.TakeWhile
import ThemeTemplates.Name

/-!
# Slugs

How the name of a view or of a partial depends on the spelling of its slug. Every step treats the
two separators alike, except that the templates directory and `partials/` are taken off a slug only
if they stand there letter by letter, their own separators included.
-/

namespace ThemeTemplates

def Whole (text : List Char) : Prop :=
  ∀ c ∈ text, isSeparator c = false

instance (text : List Char) : Decidable (Whole text) :=
  List.decidableBAll (isSeparator · = false) text

/-- A slug with a slash for each separator. Slugs that differ in their separators alone share it. -/
def slashed (slug : List Char) : List Char :=
  slug.map fun c => if isSeparator c then '/' else c

/-- A slug goes on below a path, behind a separator. -/
def Below (path slug : List Char) : Prop :=
  ∃ separator rest, isSeparator separator = true ∧ slug = path ++ separator :: rest

/-- A slug lies in a templates directory, which is named as the slug names it. -/
def InDirectory (directory slug : List Char) : Prop :=
  stripEnds isSeparator directory ≠ [] ∧
    Below (stripEnds isSeparator directory) (slug.dropWhile isSeparator)

/-- A slug starts with the directory of the partials, followed by a slash. -/
def UnderPartials (slug : List Char) : Prop :=
  "partials/".toList <+: stripEnds isSeparator slug

instance (slug : List Char) : Decidable (UnderPartials slug) :=
  inferInstanceAs (Decidable ("partials/".toList <+: stripEnds isSeparator slug))

def stemOf (extension slug : List Char) : List Char :=
  dropSuffix ".php".toList (dropSuffix extension slug)

/-- The name of the view for a slug that has neither directory nor extension. -/
def underViews (slug : List Char) : List Char :=
  if "views/".toList.isPrefixOf slug || "views\\".toList.isPrefixOf slug then dotted slug
  else "views.".toList ++ dotted slug

theorem viewName_eq (directory extension slug : List Char) :
    viewName directory extension slug =
      underViews (stemOf extension (dropDirectory directory slug)) := rfl

theorem whole_views : Whole "views".toList := by decide

theorem whole_partials : Whole "partials".toList := by decide

theorem whole_php : Whole ".php".toList := by decide

/-! ### Taking slugs apart -/

theorem isPrefixOf?_append (front rest : List Char) :
    front.isPrefixOf? (front ++ rest) = some rest :=
  List.isPrefixOf?_eq_some_iff_append_eq.mpr rfl

theorem dropDirectory_of_below {directory slug rest : List Char} {separator : Char}
    (nonempty : stripEnds isSeparator directory ≠ []) (h : isSeparator separator = true)
    (found : slug.dropWhile isSeparator = stripEnds isSeparator directory ++ separator :: rest) :
    dropDirectory directory slug = rest.dropWhile isSeparator := by
  simp only [dropDirectory, found, isPrefixOf?_append, h, List.isEmpty_eq_false_iff.mpr nonempty,
    if_true, Bool.false_eq_true, if_false]

theorem dropDirectory_of_not_inDirectory {directory slug : List Char}
    (outside : ¬ InDirectory directory slug) :
    dropDirectory directory slug = slug.dropWhile isSeparator := by
  simp only [dropDirectory]
  split
  · rfl
  · next nonempty =>
      split
      · next c rest front =>
          rw [if_neg]
          intro separator
          exact outside ⟨List.isEmpty_eq_false_iff.mp (Bool.not_eq_true _ ▸ nonempty), c, rest,
            separator, (List.isPrefixOf?_eq_some_iff_append_eq.mp front).symm⟩
      · rfl

theorem dropSuffix_append (suffix text : List Char) :
    dropSuffix suffix (text ++ suffix) = text := by
  rw [dropSuffix, List.isSuffixOf?_eq_some_iff_append_eq.mpr rfl, Option.getD_some]

theorem dropSuffix_of_not_suffix {suffix text : List Char} (other : ¬ suffix <:+ text) :
    dropSuffix suffix text = text := by
  unfold dropSuffix
  cases found : suffix.isSuffixOf? text with
  | none => rfl
  | some stem => exact absurd ⟨stem, List.isSuffixOf?_eq_some_iff_append_eq.mp found⟩ other

theorem underViews_of_below {slug : List Char} (h : Below "views".toList slug) :
    underViews slug = dotted slug := by
  obtain ⟨separator, rest, hseparator, rfl⟩ := h
  refine if_pos ?_
  rcases Bool.or_eq_true_iff.mp hseparator with slash | backslash
  · simp [beq_iff_eq.mp slash, List.isPrefixOf]
  · simp [beq_iff_eq.mp backslash, List.isPrefixOf]

theorem underViews_of_not_below {slug : List Char} (h : ¬ Below "views".toList slug) :
    underViews slug = "views.".toList ++ dotted slug := by
  refine if_neg fun views => h ?_
  rcases Bool.or_eq_true_iff.mp views with slash | backslash
  · obtain ⟨rest, rfl⟩ := List.isPrefixOf_iff_prefix.mp slash
    exact ⟨'/', rest, rfl, rfl⟩
  · obtain ⟨rest, rfl⟩ := List.isPrefixOf_iff_prefix.mp backslash
    exact ⟨'\\', rest, rfl, rfl⟩

theorem partialName_of_underPartials {slug rest : List Char}
    (h : stripEnds isSeparator slug = "partials/".toList ++ rest) :
    partialName slug = "partials.".toList ++ dotted rest := by
  have found : "partials/".toList.isPrefixOf? (stripEnds isSeparator slug) = some rest := by
    rw [h, isPrefixOf?_append]
  exact congrArg (fun rest => "partials.".toList ++ dotted (Option.getD rest _)) found

theorem partialName_of_not_underPartials {slug : List Char} (h : ¬ UnderPartials slug) :
    partialName slug = "partials.".toList ++ dotted (stripEnds isSeparator slug) := by
  have missing : "partials/".toList.isPrefixOf? (stripEnds isSeparator slug) = none :=
    Option.eq_none_iff_forall_ne_some.mpr fun rest found =>
      h ⟨rest, List.isPrefixOf?_eq_some_iff_append_eq.mp found⟩
  exact congrArg (fun rest => "partials.".toList ++ dotted (Option.getD rest _)) missing

/-! ### One spelling for both separators -/

theorem isSeparator_slashed (c : Char) :
    isSeparator (if isSeparator c then '/' else c) = isSeparator c := by
  by_cases separator : isSeparator c = true
  · rw [if_pos separator, separator]
    rfl
  · rw [if_neg separator]

theorem slashed_append (first second : List Char) :
    slashed (first ++ second) = slashed first ++ slashed second := List.map_append

theorem length_slashed (slug : List Char) : (slashed slug).length = slug.length := List.length_map _

theorem length_dotted (slug : List Char) : (dotted slug).length = slug.length := List.length_map _

theorem map_of_whole {text : List Char} (whole : Whole text) (replacement : Char) :
    (text.map fun c => if isSeparator c then replacement else c) = text :=
  (List.map_congr_left fun c hc => by rw [whole c hc]; rfl).trans (List.map_id text)

theorem slashed_of_whole {text : List Char} (whole : Whole text) : slashed text = text :=
  map_of_whole whole '/'

theorem dotted_of_whole {text : List Char} (whole : Whole text) : dotted text = text :=
  map_of_whole whole '.'

theorem slashed_eq_whole {slug text : List Char} (whole : Whole text) :
    slashed slug = text ↔ slug = text := by
  refine ⟨fun same => ?_, fun same => by rw [same, slashed_of_whole whole]⟩
  have plain : Whole slug := fun c hc => by
    rw [← isSeparator_slashed c]
    exact whole _ (same ▸ List.mem_map_of_mem hc)
  rw [← slashed_of_whole plain, same]

theorem slashed_dropWhile (slug : List Char) :
    slashed (slug.dropWhile isSeparator) = (slashed slug).dropWhile isSeparator := by
  unfold slashed
  rw [List.dropWhile_map]
  exact congrArg (fun p => List.map _ (slug.dropWhile p)) (funext isSeparator_slashed).symm

theorem slashed_stripEnds (slug : List Char) :
    slashed (stripEnds isSeparator slug) = stripEnds isSeparator (slashed slug) := by
  have reversed : ∀ text : List Char, slashed text.reverse = (slashed text).reverse :=
    fun _ => List.map_reverse
  rw [stripEnds, reversed, slashed_dropWhile, reversed, slashed_dropWhile, stripEnds]

theorem dotted_slashed (slug : List Char) : dotted (slashed slug) = dotted slug := by
  unfold dotted slashed
  rw [List.map_map]
  refine List.map_congr_left fun c _ => ?_
  by_cases separator : isSeparator c = true
  · simp [separator, show isSeparator '/' = true from rfl]
  · simp [separator]

theorem dotted_congr {first second : List Char} (alike : slashed first = slashed second) :
    dotted first = dotted second := by
  rw [← dotted_slashed first, alike, dotted_slashed]

theorem suffix_slashed {suffix slug : List Char} (whole : Whole suffix) :
    suffix <:+ slashed slug ↔ suffix <:+ slug := by
  constructor
  · rintro ⟨front, same⟩
    obtain ⟨front', suffix', rfl, -, same⟩ := List.append_eq_map_iff.mp same
    exact ⟨front', by rw [(slashed_eq_whole whole).mp same]⟩
  · rintro ⟨front, rfl⟩
    exact ⟨slashed front, by rw [slashed_append, slashed_of_whole whole]⟩

theorem slashed_dropSuffix {suffix : List Char} (whole : Whole suffix) (slug : List Char) :
    slashed (dropSuffix suffix slug) = dropSuffix suffix (slashed slug) := by
  by_cases h : suffix <:+ slug
  · obtain ⟨front, rfl⟩ := h
    rw [dropSuffix_append, slashed_append, slashed_of_whole whole, dropSuffix_append]
  · rw [dropSuffix_of_not_suffix h, dropSuffix_of_not_suffix ((suffix_slashed whole).not.mpr h)]

theorem slashed_stemOf {extension : List Char} (whole : Whole extension) (slug : List Char) :
    slashed (stemOf extension slug) = stemOf extension (slashed slug) := by
  rw [stemOf, slashed_dropSuffix whole_php, slashed_dropSuffix whole, stemOf]

/-- What stands around a separator in one spelling stands around a separator in every other. -/
theorem exists_respelled {path rest second : List Char} {separator : Char}
    (h : isSeparator separator = true)
    (alike : slashed (path ++ separator :: rest) = slashed second) :
    ∃ path' separator' rest', second = path' ++ separator' :: rest' ∧
      isSeparator separator' = true ∧ slashed path' = slashed path ∧
      slashed rest' = slashed rest := by
  rw [slashed_append] at alike
  obtain ⟨path', tail, rfl, samePath, sameTail⟩ := List.append_eq_map_iff.mp alike
  obtain ⟨separator', rest', rfl, sameSeparator, sameRest⟩ := List.map_eq_cons_iff.mp sameTail
  refine ⟨path', separator', rest', rfl, ?_, samePath, sameRest⟩
  rw [← isSeparator_slashed, sameSeparator, isSeparator_slashed, h]

theorem below_iff_of_whole {path first second : List Char} (whole : Whole path)
    (alike : slashed first = slashed second) : Below path first ↔ Below path second := by
  have onwards : ∀ {first second : List Char}, slashed first = slashed second →
      Below path first → Below path second := by
    rintro _ second alike ⟨separator, rest, h, rfl⟩
    obtain ⟨path', separator', rest', rfl, h', same, -⟩ := exists_respelled h alike
    rw [slashed_of_whole whole, slashed_eq_whole whole] at same
    exact ⟨separator', rest', h', by rw [same]⟩
  exact ⟨onwards alike, onwards alike.symm⟩

theorem underViews_congr {first second : List Char} (alike : slashed first = slashed second) :
    underViews first = underViews second := by
  by_cases views : Below "views".toList first
  · rw [underViews_of_below views,
      underViews_of_below ((below_iff_of_whole whole_views alike).mp views), dotted_congr alike]
  · rw [underViews_of_not_below views,
      underViews_of_not_below ((below_iff_of_whole whole_views alike).not.mp views),
      dotted_congr alike]

/-! ### Names of views -/

theorem slashed_dropDirectory {directory first second : List Char}
    (alike : slashed first = slashed second)
    (same : InDirectory directory first ↔ InDirectory directory second) :
    slashed (dropDirectory directory first) = slashed (dropDirectory directory second) := by
  have trimmed : slashed (first.dropWhile isSeparator) =
      slashed (second.dropWhile isSeparator) := by
    rw [slashed_dropWhile, alike, slashed_dropWhile]
  by_cases inside : InDirectory directory first
  · obtain ⟨-, _, rest', h', found'⟩ := same.mp inside
    obtain ⟨nonempty, _, rest, h, found⟩ := inside
    have sameRest : slashed rest = slashed rest' := by
      rw [found, found', slashed_append, slashed_append] at trimmed
      exact (List.cons.inj (List.append_cancel_left trimmed)).2
    rw [dropDirectory_of_below nonempty h found, dropDirectory_of_below nonempty h' found',
      slashed_dropWhile, sameRest, slashed_dropWhile]
  · rw [dropDirectory_of_not_inDirectory inside,
      dropDirectory_of_not_inDirectory (same.not.mp inside), trimmed]

theorem dropSuffix_behind {suffix : List Char} (whole : Whole suffix) {separator : Char}
    (h : isSeparator separator = true) (front text : List Char) :
    dropSuffix suffix (front ++ separator :: text) = front ++
      separator :: dropSuffix suffix text := by
  have outside : separator ∉ suffix :=
    fun inside => Bool.noConfusion (h.symm.trans (whole _ inside))
  by_cases ends : suffix <:+ text
  · obtain ⟨stem, rfl⟩ := ends
    rw [dropSuffix_append, ← List.cons_append, ← List.append_assoc, dropSuffix_append]
  · rw [dropSuffix_of_not_suffix ends, dropSuffix_of_not_suffix]
    intro reaches
    rcases List.suffix_or_suffix_of_suffix reaches (List.suffix_append front (separator :: text))
      with within | beyond
    · rcases List.suffix_cons_iff.mp within with rfl | within
      · exact outside List.mem_cons_self
      · exact ends within
    · exact outside (beyond.subset List.mem_cons_self)

theorem stemOf_behind {extension : List Char} (whole : Whole extension) {separator : Char}
    (h : isSeparator separator = true) (front text : List Char) :
    stemOf extension (front ++ separator :: text) = front ++
      separator :: stemOf extension text := by
  rw [stemOf, dropSuffix_behind whole h, dropSuffix_behind whole_php h, stemOf]

theorem stemOf_behind_separators {extension : List Char} (whole : Whole extension)
    {separators : List Char} (h : ∀ c ∈ separators, isSeparator c = true) (text : List Char) :
    stemOf extension (separators ++ text) = separators ++ stemOf extension text := by
  induction separators with
  | nil => rfl
  | cons c rest ih =>
      have first := stemOf_behind whole (h c List.mem_cons_self) [] (rest ++ text)
      rw [List.cons_append, ← List.nil_append (c :: (rest ++ text)), first,
        ih fun d hd => h d (List.mem_cons_of_mem _ hd)]
      rfl

/-- Two paths in front of a separator, the longer one without separators, are the same. -/
theorem eq_of_append_separator {path front rest rest' : List Char} {separator separator' : Char}
    (whole : Whole front) (h : isSeparator separator = true) (short : path.length ≤ front.length)
    (same : path ++ separator :: rest = front ++ separator' :: rest') : path = front := by
  rcases List.append_eq_append_iff.mp same with ⟨between, rfl, eq⟩ | ⟨between, rfl, -⟩
  · cases between with
    | nil => rw [List.append_nil]
    | cons c between =>
        obtain ⟨rfl, -⟩ := List.cons.inj eq
        have inside := whole separator (List.mem_append_right _ List.mem_cons_self)
        exact Bool.noConfusion (h.symm.trans inside)
  · rw [List.length_append] at short
    rw [List.length_eq_zero_iff.mp (by omega : between.length = 0), List.append_nil]

/-- Only `views` may be put in front of a slug without any effect on the name. -/
theorem underViews_ne {path : List Char} (other : path ≠ "views".toList) {separator : Char}
    (h : isSeparator separator = true) (separators text : List Char) :
    underViews text ≠ underViews (path ++ separator :: (separators ++ text)) := by
  intro same
  have lengths := congrArg List.length same
  have six : "views.".toList.length = 6 := rfl
  by_cases views : Below "views".toList (path ++ separator :: (separators ++ text))
  · rw [underViews_of_below views] at lengths
    by_cases views' : Below "views".toList text
    · simp only [underViews_of_below views', length_dotted, List.length_append,
        List.length_cons] at lengths
      omega
    · simp only [underViews_of_not_below views', length_dotted, List.length_append,
        List.length_cons, six] at lengths
      obtain ⟨separator', rest, -, eq⟩ := views
      have short : path.length ≤ "views".toList.length := show path.length ≤ 5 by omega
      exact other (eq_of_append_separator whole_views h short eq)
  · rw [underViews_of_not_below views] at lengths
    by_cases views' : Below "views".toList text
    · simp only [underViews_of_below views', length_dotted, List.length_append,
        List.length_cons] at lengths
      omega
    · simp only [underViews_of_not_below views', length_dotted, List.length_append,
        List.length_cons] at lengths
      omega

theorem viewName_congr {directory extension first second : List Char} (whole : Whole extension)
    (alike : slashed first = slashed second)
    (same : InDirectory directory first ↔ InDirectory directory second) :
    viewName directory extension first = viewName directory extension second := by
  rw [viewName_eq, viewName_eq]
  refine underViews_congr ?_
  rw [slashed_stemOf whole, slashed_dropDirectory alike same, slashed_stemOf whole]

theorem viewName_ne {directory extension first second : List Char} (whole : Whole extension)
    (alike : slashed first = slashed second) (inside : InDirectory directory first)
    (outside : ¬ InDirectory directory second) :
    viewName directory extension first ≠ viewName directory extension second := by
  obtain ⟨nonempty, separator, rest, h, found⟩ := inside
  have trimmed : slashed (stripEnds isSeparator directory ++ separator :: rest) =
      slashed (second.dropWhile isSeparator) := by
    rw [← found, slashed_dropWhile, alike, slashed_dropWhile]
  obtain ⟨path, separator', rest', found', h', samePath, sameRest⟩ := exists_respelled h trimmed
  have other : path ≠ "views".toList := by
    rintro rfl
    rw [slashed_of_whole whole_views, eq_comm, slashed_eq_whole whole_views] at samePath
    exact outside ⟨nonempty, separator', rest', h', by rw [found', samePath]⟩
  have stems : underViews (stemOf extension (rest.dropWhile isSeparator)) =
      underViews (stemOf extension (rest'.dropWhile isSeparator)) := by
    refine underViews_congr ?_
    rw [slashed_stemOf whole, slashed_dropWhile, ← sameRest, ← slashed_dropWhile,
      slashed_stemOf whole]
  have spaced : stemOf extension rest' =
      rest'.takeWhile isSeparator ++ stemOf extension (rest'.dropWhile isSeparator) := by
    rw [← stemOf_behind_separators whole fun c hc => List.mem_takeWhile_imp hc,
      List.takeWhile_append_dropWhile]
  rw [viewName_eq, viewName_eq, dropDirectory_of_below nonempty h found, stems,
    dropDirectory_of_not_inDirectory outside, found', stemOf_behind whole h', spaced]
  exact underViews_ne other h' _ _

theorem viewName_eq_iff {directory extension first second : List Char} (whole : Whole extension)
    (alike : slashed first = slashed second) :
    viewName directory extension first = viewName directory extension second ↔
      (InDirectory directory first ↔ InDirectory directory second) := by
  refine ⟨fun same => ⟨fun inside => ?_, fun inside => ?_⟩, viewName_congr whole alike⟩
  · by_contra outside
    exact viewName_ne whole alike inside outside same
  · by_contra outside
    exact viewName_ne whole alike.symm inside outside same.symm

theorem inDirectory_iff_of_whole {directory first second : List Char}
    (whole : Whole (stripEnds isSeparator directory)) (alike : slashed first = slashed second) :
    InDirectory directory first ↔ InDirectory directory second :=
  and_congr_right fun _ =>
    below_iff_of_whole whole (by rw [slashed_dropWhile, alike, slashed_dropWhile])

/-! ### Names of partials -/

theorem slashed_stripEnds_eq {first second : List Char} (alike : slashed first = slashed second) :
    slashed (stripEnds isSeparator first) = slashed (stripEnds isSeparator second) := by
  rw [slashed_stripEnds, alike, slashed_stripEnds]

theorem partialName_congr {first second : List Char} (alike : slashed first = slashed second)
    (same : UnderPartials first ↔ UnderPartials second) :
      partialName first = partialName second := by
  have stripped := slashed_stripEnds_eq alike
  by_cases under : UnderPartials first
  · obtain ⟨rest', found'⟩ := same.mp under
    obtain ⟨rest, found⟩ := under
    rw [← found, ← found', slashed_append, slashed_append] at stripped
    rw [partialName_of_underPartials found.symm, partialName_of_underPartials found'.symm,
      dotted_congr (List.append_cancel_left stripped)]
  · rw [partialName_of_not_underPartials under,
      partialName_of_not_underPartials (same.not.mp under), dotted_congr stripped]

theorem partialName_ne {first second : List Char} (alike : slashed first = slashed second)
    (under : UnderPartials first) (other : ¬ UnderPartials second) :
    partialName first ≠ partialName second := by
  obtain ⟨rest, found⟩ := under
  have stripped := congrArg List.length (slashed_stripEnds_eq alike)
  rw [length_slashed, length_slashed, ← found, List.length_append] at stripped
  rw [partialName_of_underPartials found.symm, partialName_of_not_underPartials other]
  intro same
  have lengths := congrArg List.length (List.append_cancel_left same)
  rw [length_dotted, length_dotted, ← stripped] at lengths
  have nine : "partials/".toList.length = 9 := rfl
  omega

theorem partialName_eq_iff {first second : List Char} (alike : slashed first = slashed second) :
    partialName first = partialName second ↔ (UnderPartials first ↔ UnderPartials second) := by
  refine ⟨fun same => ⟨fun under => ?_, fun under => ?_⟩, partialName_congr alike⟩
  · by_contra other
    exact partialName_ne alike under other same
  · by_contra other
    exact partialName_ne alike.symm under other same.symm

theorem UnderPartials.below {slug : List Char} (under : UnderPartials slug) :
    Below "partials".toList (stripEnds isSeparator slug) := by
  obtain ⟨rest, found⟩ := under
  exact ⟨'/', rest, rfl, found.symm⟩

/-- Two spellings of a slug have the same view name unless one of them alone lies in the templates
directory as that is spelled, and the same partial name unless one of them alone starts with
`partials` and a slash. So the spelling of a slug matters only where a backslash follows `partials`,
or under a templates directory of several steps. -/
theorem names_of_respelled {first second : List Char} (alike : slashed first = slashed second)
    (directory : List Char) {extension : List Char} (whole : Whole extension) :
    (viewName directory extension first = viewName directory extension second ↔
      (InDirectory directory first ↔ InDirectory directory second)) ∧
    (Whole (stripEnds isSeparator directory) →
      viewName directory extension first = viewName directory extension second) ∧
    (partialName first = partialName second ↔ (UnderPartials first ↔ UnderPartials second)) ∧
    (¬ Below "partials".toList (stripEnds isSeparator first) →
      partialName first = partialName second) := by
  refine ⟨viewName_eq_iff whole alike, fun single => ?_, partialName_eq_iff alike, fun other => ?_⟩
  · exact viewName_congr whole alike (inDirectory_iff_of_whole single alike)
  · have other' : ¬ Below "partials".toList (stripEnds isSeparator second) :=
      (below_iff_of_whole whole_partials (slashed_stripEnds_eq alike)).not.mp other
    exact partialName_congr alike (iff_of_false (other ·.below) (other' ·.below))

/-- With a backslash behind `partials` the slug is the name of another partial. -/
theorem names_of_respelled_footer :
    slashed "partials/footer".toList = slashed "partials\\footer".toList ∧
      Whole ".blade.html".toList ∧ Whole (stripEnds isSeparator "theme/".toList) ∧
      viewName "theme/".toList ".blade.html".toList "partials/footer".toList =
        viewName "theme/".toList ".blade.html".toList "partials\\footer".toList ∧
      partialName "partials/footer".toList ≠ partialName "partials\\footer".toList := by
  have alike : slashed "partials/footer".toList = slashed "partials\\footer".toList := by decide
  have whole : Whole ".blade.html".toList := by decide
  have single : Whole (stripEnds isSeparator "theme/".toList) := by decide
  obtain ⟨-, views, partials, -⟩ := names_of_respelled alike "theme/".toList whole
  exact ⟨alike, whole, single, views single, partials.not.mpr (by decide)⟩

theorem backslash_keeps_prefix :
    partialName "partials/footer".toList = "partials.footer".toList ∧
      partialName "partials\\footer".toList = "partials.partials.footer".toList ∧
      viewName "a/b".toList ".blade.html".toList "a/b/c".toList = "views.c".toList ∧
      viewName "a/b".toList ".blade.html".toList "a\\b/c".toList = "views.a.b.c".toList := by
  decide

end ThemeTemplates
