import ThemeTemplates.Text.Blank

/-!
# Template names

A template is known by a dotted name such as `partials.header.primary`. Theme files and authors
write paths instead, with either separator; the functions here turn such a slug into the name it
stands for.
-/

namespace ThemeTemplates

def isSeparator (c : Char) : Bool :=
  c == '/' || c == '\\'

def dotted (slug : List Char) : List Char :=
  slug.map fun c => if isSeparator c then '.' else c

/-- A text without `suffix` at its end, or as it is when it does not end so. -/
def dropSuffix (suffix text : List Char) : List Char :=
  (suffix.isSuffixOf? text).getD text

/-- A slug without leading separators and without the templates directory in front. The directory
counts only when a separator follows it. -/
def dropDirectory (directory slug : List Char) : List Char :=
  let slug := slug.dropWhile isSeparator
  let directory := stripEnds isSeparator directory
  if directory.isEmpty then slug
  else
    match directory.isPrefixOf? slug with
    | some (c :: rest) => if isSeparator c then rest.dropWhile isSeparator else slug
    | _ => slug

/-- The name of the view for a theme file: without the templates directory, the extension and
`.php`, and under `views.` unless the slug says so itself. -/
def viewName (directory extension slug : List Char) : List Char :=
  let slug := dropSuffix ".php".toList (dropSuffix extension (dropDirectory directory slug))
  if "views/".toList.isPrefixOf slug || "views\\".toList.isPrefixOf slug then dotted slug
  else "views.".toList ++ dotted slug

def partialName (slug : List Char) : List Char :=
  let slug := stripEnds isSeparator slug
  "partials.".toList ++ dotted (("partials/".toList.isPrefixOf? slug).getD slug)

theorem not_isSeparator_of_mem_dotted {slug : List Char} {c : Char} (h : c ∈ dotted slug) :
    isSeparator c = false := by
  simp only [dotted, List.mem_map] at h
  obtain ⟨d, _, rfl⟩ := h
  by_cases hd : isSeparator d = true
  · simp only [hd, if_true]
    decide
  · simp [hd]

end ThemeTemplates
