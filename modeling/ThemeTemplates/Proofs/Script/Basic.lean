import ThemeTemplates.Proofs.Argument.Literal
import ThemeTemplates.Proofs.Directive.Seal
import ThemeTemplates.Proofs.Text.Brackets

/-!
# Scripts

Templates of the simplest kind that still nests: text, echoes of variables and their fields, loops,
and partials without data. A script is such a template as its author means it. How it is written
tells which segments are found in a source, and expansion puts code in their place.
-/

namespace ThemeTemplates

def isWord (s : String) : Bool :=
  s.toList.head?.any isWordStart && s.toList.all isWordChar

/-- Whether a text is a word that is not kept for the functions of the directives. -/
def isName (s : String) : Bool :=
  isWord s && !("__".toList.isPrefixOf s.toList)

def isQuotable (s : String) : Bool :=
  s.toList.all fun c => c != '\'' && c != '\\' && c != '\n'

/-- A variable and the fields taken of it in turn. -/
structure Path where
  head : String
  fields : List String
deriving DecidableEq, Repr

namespace Path

def print (path : Path) : List Char :=
  path.head.toList ++ path.fields.flatMap fun field => '.' :: field.toList

def reserved : List String :=
  ["not", "true", "True", "false", "False", "none", "None"]

/-- Whether a path begins with a variable, and not with a function of the directives. -/
def isOrdinary (path : Path) : Bool :=
  isWord path.head && path.fields.all isWord && !reserved.contains path.head &&
    (PageFunction.ofName? path.head).isNone

end Path

/-- What a loop is over: a variable, with its sigil or without, or a text. -/
inductive Operand where
  | path (sigil : Bool) (path : Path)
  | text (s : String)
deriving DecidableEq, Repr

namespace Operand

def print : Operand → List Char
  | path true p => '$' :: p.print
  | path false p => p.print
  | text s => '\'' :: (s.toList ++ ['\''])

def code : Operand → List Char
  | path _ p => p.print
  | text s => '\'' :: (s.toList ++ ['\''])

def isOrdinary : Operand → Bool
  | path _ p => p.isOrdinary
  | text s => isQuotable s

end Operand

inductive Script where
  | done (text : String)
  | echo (text : String) (path : Path) (rest : Script)
  /-- A loop over an operand whose items are bound to a name. -/
  | loop (text : String) (kind : LoopKind) (source : Operand) (name : String) (body rest : Script)
  | child (text : String) (slug : String) (rest : Script)
deriving DecidableEq, Repr

namespace Script

def unbindable : List String :=
  ["not", "in", "blade_loop"] ++ Parse.reservedNames

/-- The name of the partial for a slug, without the part that all names of partials begin with. -/
def childName (slug : String) : List Char :=
  dotted (stripEnds isSeparator slug.toList)

def childTemplate (slug : String) : String :=
  String.ofList ("partials.".toList ++ childName slug)

def isOrdinary : Script → Bool
  | done text => text.toList.all (· != '\x7b')
  | echo text path rest => text.toList.all (· != '\x7b') && path.isOrdinary && rest.isOrdinary
  | loop text _ source name body rest =>
    text.toList.all (· != '\x7b') && source.isOrdinary && isName name &&
      !unbindable.contains name && body.isOrdinary && rest.isOrdinary
  | child text slug rest =>
    text.toList.all (· != '\x7b') && isQuotable slug && !(childName slug).isEmpty && rest.isOrdinary

def height : Script → Nat
  | done _ => 0
  | echo _ _ rest => rest.height
  | loop _ _ _ _ body rest => max (body.height + 1) rest.height
  | child _ _ rest => rest.height

def breaks : Script → Nat
  | done text => lineBreaks text.toList
  | echo text _ rest => lineBreaks text.toList + rest.breaks
  | loop text _ _ _ body rest => lineBreaks text.toList + body.breaks + rest.breaks
  | child text _ rest => lineBreaks text.toList + rest.breaks

/-! ### Segments -/

def endName : LoopKind → String
  | .loop => "endloop"
  | .simpleMenu => "endsimplemenu"

def loopArgs (source : Operand) (name : String) : List Char :=
  '(' :: (source.print ++ " as $".toList ++ name.toList ++ [')'])

def childArgs (slug : String) : List Char :=
  '(' :: '\'' :: (slug.toList ++ ['\'', ')'])

def behind (text : String) (segments : List Segment) : List Segment :=
  if text.toList.isEmpty then segments else Segment.prepend text.toList segments

def segments (line : Nat) : Script → List Segment
  | done text => behind text []
  | echo text path rest =>
    Segment.prepend (text.toList ++ (Tag.echo path.print).print)
      (segments (line + lineBreaks text.toList) rest)
  | loop text kind source name body rest =>
    let start := line + lineBreaks text.toList
    let stop := start + body.breaks
    behind text (.directive kind.name (loopArgs source name) start ::
      (segments start body ++ .directive (endName kind) [] stop :: segments stop rest))
  | child text slug rest =>
    let start := line + lineBreaks text.toList
    behind text (.directive "partial" (childArgs slug) start :: segments start rest)

/-! ### Code -/

def itemsCode : LoopKind → Operand → List Char
  | .loop, source => source.code
  | .simpleMenu, source => PageFunction.call .navMenu source.code

def openTags (kind : LoopKind) (source : Operand) (name : String) : List Tag :=
  [.statement ("for ".toList ++ name.toList ++ " in ".toList ++ PageFunction.call .loopPush
      (Builtin.commaSeparated (itemsCode kind source) (Builtin.kindLiteral kind))),
    Builtin.setLoopVariable (PageFunction.call .loopNext
      (Builtin.commaSeparated name.toList (Builtin.kindLiteral kind)))]

def closeTags (kind : LoopKind) : List Tag :=
  [.statement "endfor".toList,
    Builtin.setLoopVariable (PageFunction.call .loopPop (Builtin.kindLiteral kind))]

def childTag (slug : String) : Tag :=
  .echo (PageFunction.call .renderChild (Builtin.commaSeparated
    (encodeLiteral ("partials.".toList ++ childName slug)) Builtin.noFields))

def code : Script → List Char
  | done text => text.toList
  | echo text path rest => text.toList ++ ((Tag.echo path.print).print ++ rest.code)
  | loop text kind source name body rest =>
    text.toList ++ (printTags (openTags kind source name) ++
      (body.code ++ (printTags (closeTags kind) ++ rest.code)))
  | child text slug rest => text.toList ++ (printTags [childTag slug] ++ rest.code)

end Script

/-! ### Names and operands -/

theorem isWord_iff {s : String} : isWord s = true ↔ s.toList.head?.any isWordStart = true ∧
    ∀ c ∈ s.toList, isWordChar c = true := by
  simp only [isWord, Bool.and_eq_true, List.all_eq_true]

theorem isName_iff {s : String} : isName s = true ↔ isWord s = true ∧ ¬ Token.IsHidden s := by
  simp only [isName, Bool.and_eq_true, Bool.not_eq_true', ← Bool.not_eq_true,
    List.isPrefixOf_iff_prefix]
  rfl

theorem isQuotable_iff {s : String} :
    isQuotable s = true ↔ ∀ c ∈ s.toList, c ≠ '\'' ∧ c ≠ '\\' ∧ c ≠ '\n' := by
  simp [isQuotable, and_assoc]

namespace Path

variable {path : Path}

theorem isOrdinary_iff : path.isOrdinary = true ↔ isWord path.head = true ∧
    (∀ field ∈ path.fields, isWord field = true) ∧ path.head ∉ reserved ∧
      PageFunction.ofName? path.head = none := by
  simp [isOrdinary, and_assoc]

theorem mem_print (h : path.isOrdinary = true) {c : Char} (hmem : c ∈ path.print) :
    isWordChar c = true ∨ c = '.' := by
  obtain ⟨head, fields, -⟩ := isOrdinary_iff.mp h
  simp only [print, List.mem_append, List.mem_flatMap, List.mem_cons] at hmem
  rcases hmem with hmem | ⟨field, hfield, rfl | hmem⟩
  · exact .inl ((isWord_iff.mp head).2 c hmem)
  · exact .inr rfl
  · exact .inl ((isWord_iff.mp (fields field hfield)).2 c hmem)

theorem head?_print (h : path.isOrdinary = true) : path.print.head?.any isWordStart = true := by
  obtain ⟨start, -⟩ := isWord_iff.mp (isOrdinary_iff.mp h).1
  unfold print
  cases same : path.head.toList with
  | nil =>
      rw [same] at start
      cases start
  | cons c rest =>
      rw [same] at start
      exact start

end Path

theorem escapeLiteral_of_isQuotable {s : String} (h : isQuotable s = true) :
    escapeLiteral s.toList = s.toList := by
  have plain := isQuotable_iff.mp h
  generalize s.toList = text at plain
  induction text with
  | nil => rfl
  | cons c text ih =>
      obtain ⟨⟨noMark, noSlash, -⟩, rest⟩ := List.forall_mem_cons.mp plain
      simp [escapeLiteral, noMark, noSlash, ih rest]

theorem encodeLiteral_of_isQuotable {s : String} (h : isQuotable s = true) :
    encodeLiteral s.toList = '\'' :: (s.toList ++ ['\'']) := by
  rw [encodeLiteral, escapeLiteral_of_isQuotable h]

theorem dropSigils_quoted {s : String} (h : isQuotable s = true) :
    dropSigils .outside ('\'' :: (s.toList ++ ['\''])) = '\'' :: (s.toList ++ ['\'']) := by
  rw [← encodeLiteral_of_isQuotable h]
  exact pageExpression_encodeLiteral s.toList

namespace Operand

variable {operand : Operand}

theorem contained_path {path : Path} (h : path.isOrdinary = true) : Contained path.print := by
  refine contained_of_neutral fun c hmem => ?_
  rcases Path.mem_print h hmem with word | rfl
  · exact isNeutral_of_isWordChar word
  · rfl

theorem contained_quoted {s : String} (h : isQuotable s = true) :
    Contained ('\'' :: (s.toList ++ ['\''])) :=
  encodeLiteral_of_isQuotable h ▸ (Emittable.encodeLiteral s.toList).contained

theorem contained_print (h : operand.isOrdinary = true) : Contained operand.print := by
  cases operand with
  | path sigil path =>
      cases sigil with
      | true => exact (show Contained ['$'] from rfl).append (contained_path h)
      | false => exact contained_path h
  | text s => exact contained_quoted h

theorem pageExpression_print (h : operand.isOrdinary = true) :
    pageExpression operand.print = operand.code := by
  cases operand with
  | path sigil path =>
      have noSigil : '$' ∉ path.print := by
        intro hmem
        rcases Path.mem_print h hmem with word | same
        · exact absurd word (by decide)
        · exact absurd same (by decide)
      have kept := dropSigils_of_noSigil noSigil .outside
      cases sigil with
      | true =>
          have start := Path.head?_print h
          simpa [print, code, pageExpression, dropSigils, start] using kept
      | false => exact kept
  | text s => exact dropSigils_quoted h

theorem head?_print (h : operand.isOrdinary = true) :
    operand.print.head?.any (fun c => !isBlank c && c != '(') = true := by
  have named : ∀ {text : List Char}, text.head?.any isWordStart = true →
      text.head?.any (fun c => !isBlank c && c != '(') = true := by
    intro text start
    cases text with
    | nil => cases start
    | cons c rest =>
        have word : isWordStart c = true := start
        have other : c ≠ '(' := by
          rintro rfl
          cases word
        simp [visible_of_word (isWordStart_isWordChar word), other]
  cases operand with
  | path sigil path =>
      cases sigil with
      | true => rfl
      | false => exact named (Path.head?_print h)
  | text s => rfl

end Operand

namespace Script

theorem oneLine_path {path : Path} (h : path.isOrdinary = true) : '\n' ∉ path.print := by
  intro hmem
  rcases Path.mem_print h hmem with word | same
  · exact absurd word (by decide)
  · exact absurd same (by decide)

theorem oneLine_word {word : List Char} (letters : ∀ c ∈ word, isWordChar c = true) :
    '\n' ∉ word := fun hmem => absurd (letters _ hmem) (by decide)

theorem oneLine_quotable {s : String} (h : isQuotable s = true) : '\n' ∉ s.toList :=
  fun hmem => (isQuotable_iff.mp h _ hmem).2.2 rfl

end Script

end ThemeTemplates
