import ThemeTemplates.Page.Token
import ThemeTemplates.Page.Tree

/-!
# Reading pages

From tokens to statements. The operators bind, from loosest to tightest: `not`, `==`, `+`, `~`, the
sign, and what follows an operand (fields, elements, calls, then filters and tests). A page fails at
the first token that is out of place; if it ends too early, at its last token. Statements and
expressions nest no more than `Parse.levelLimit` levels deep.

A part of the page language is read. The rest of it counts as out of place here: `and`, `or`, `in`
and conditional expressions, comparisons other than `==`, arithmetic other than `+` and the sign,
slices, inclusions that ignore a missing template, and all statements but `set`, `if`, `for`,
`include`, `extends` and `block` (so `import`, `macro`, `with` and `raw`).
-/

namespace ThemeTemplates

/-- What is wrong with a page, and on which line. -/
structure PageError where
  line : Nat
  flaw : PageFlaw
deriving DecidableEq, Repr

structure Cursor where
  ahead : List Lexeme
  line : Nat := 0
  blocks : List String := []

abbrev Parse := StateT Cursor (Except PageError)

namespace Parse

def failAt {α : Type} (line : Nat) (reason : String) : Parse α :=
  throw { line, flaw := .malformed reason }

def peek : Parse (Option Token) := do
  match (← get).ahead with
  | [] => return none
  | ⟨.flaw flaw, line⟩ :: _ => throw { line, flaw }
  | ⟨token, _⟩ :: _ => return some token

def next : Parse (Option Token) := do
  let token ← peek
  modify fun cursor =>
    match cursor.ahead with
    | [] => cursor
    | lexeme :: ahead => { cursor with ahead, line := lexeme.line }
  return token

def nextLine : Parse Nat := do
  let cursor ← get
  return (cursor.ahead.head?.map Lexeme.line).getD cursor.line

def unexpected {α : Type} : Parse α := do
  match ← next with
  | some _ => failAt (← get).line "unexpected token"
  | none => failAt (← get).line "unexpected end of input"

def isSign (s : String) : Option Token → Bool
  | some (.sign t) => t == s
  | _ => false

def isName (s : String) : Option Token → Bool
  | some (.name t) => t == s
  | _ => false

def skipSign (s : String) : Parse Bool := do
  if isSign s (← peek) then
    discard next
    return true
  return false

def skipName (s : String) : Parse Bool := do
  if isName s (← peek) then
    discard next
    return true
  return false

def expectSign (s : String) : Parse Unit := do
  if !(← skipSign s) then unexpected

def expectName : Parse String := do
  match ← peek with
  | some (.name s) =>
    discard next
    return s
  | _ => unexpected

def expectCloseEcho : Parse Unit := do
  match ← peek with
  | some .closeEcho => discard next
  | _ => unexpected

def expectCloseStatement : Parse Unit := do
  match ← peek with
  | some .closeStatement => discard next
  | _ => unexpected

def bound : Parse Nat := do
  return (← get).ahead.length + 1

/-- How many levels deep a page may nest. Each statement is a level, each expression between commas
or brackets is one, and each operand is one. -/
def levelLimit : Nat := 150

def tooDeep {α : Type} : Parse α := do
  failAt (← get).line "template exceeds maximum recursion limits"

/-! ### Expressions -/

/-- Reads items between commas up to a closing sign; a comma may stand after the last one. -/
def itemsUntil {α : Type} (close : String) (item : Parse α) : Nat → Parse (List α)
  | 0 => unexpected
  | steps + 1 => do
    if ← skipSign close then return []
    let first ← item
    if ← skipSign "," then
      return first :: (← itemsUntil close item steps)
    else
      expectSign close
      return [first]

def items {α : Type} (close : String) (item : Parse α) : Parse (List α) := do
  itemsUntil close item (← bound)

/-- The next token behind a literal. If it cannot be read, the page is taken to end before it. -/
def peekBehindLiteral : Parse (Option Token) := do
  match (← get).ahead with
  | ⟨.flaw _, _⟩ :: _ => failAt (← get).line "unexpected end of input"
  | _ => peek

def adjacentLiterals : Nat → Parse String
  | 0 => return ""
  | steps + 1 => do
    match ← peekBehindLiteral with
    | some (.literal s) =>
      discard next
      return s ++ (← adjacentLiterals steps)
    | _ => return ""

def word (line : Nat) (name : String) : Expression :=
  match name with
  | "true" | "True" => .constant line (.bool true)
  | "false" | "False" => .constant line (.bool false)
  | "none" | "None" => .constant line .none
  | name => .named line name

def entry (nested : Parse Expression) : Parse (Expression × Expression) := do
  let key ← nested
  expectSign ":"
  return (key, ← nested)

def parenthesized (line : Nat) (nested : Parse Expression) : Parse Expression := do
  if ← skipSign ")" then return .listFrom line []
  let first ← nested
  if ← skipSign "," then
    return .listFrom line (first :: (← items ")" nested))
  else
    expectSign ")"
    return first

def operand (nested : Parse Expression) : Parse Expression := do
  let line ← nextLine
  match ← peek with
  | some (.name s) =>
    discard next
    return word line s
  | some (.literal s) =>
    discard next
    return .constant line (.ofString (s ++ (← adjacentLiterals (← bound))))
  | some (.number n) =>
    discard next
    return .constant line (.number n)
  | some (.sign "(") =>
    discard next
    parenthesized line nested
  | some (.sign "[") =>
    discard next
    return .listFrom line (← items "]" nested)
  | some (.sign "\x7b") =>
    discard next
    return .mapFrom line (← items "\x7d" (entry nested))
  | _ => unexpected

structure Parts where
  operand : Parse Expression
  /-- An expression between the brackets behind an operand. -/
  nested : Parse Expression

def signed (parts : Parts) : Nat → Parse Expression
  | 0 => unexpected
  | steps + 1 => do
    let line ← nextLine
    if ← skipSign "-" then
      return .negate line (← signed parts steps)
    else parts.operand

def argument (nested : Parse Expression) : Parse (Option String × Expression) := do
  let first ← nested
  match first with
  | .named _ name =>
    if ← skipSign "=" then return (some name, ← nested) else return (none, first)
  | _ => return (none, first)

def argumentLimit : Nat := 2000

/-- Reads arguments up to the closing parenthesis, `count` of them and perhaps a named one being
read. Those with names come last. -/
def argumentsUntil (nested : Parse Expression) :
    Nat → Nat → Bool → Parse (List (Option String × Expression))
  | 0, _, _ => unexpected
  | steps + 1, count, named => do
    if ← skipSign ")" then return []
    let first ← argument nested
    if named && first.1.isNone then
      failAt (← get).line "argument without a name after one with a name"
    if argumentLimit ≤ count then failAt (← get).line "too many arguments in function call"
    if ← skipSign "," then
      return first :: (← argumentsUntil nested steps (count + 1) first.1.isSome)
    else
      expectSign ")"
      return [first]

/-- Reads arguments, `line` being that of what they are given to. Those with names make up one map,
which is no operand of its own if they are literals. -/
def arguments (nested : Parse Expression) (line : Nat) : Parse (List Expression) := do
  let args ← argumentsUntil nested (← bound) 0 false
  let named := args.filter fun arg => arg.1.isSome
  let positional := (args.filter fun arg => arg.1.isNone).map Prod.snd
  if named.isEmpty then return positional
  else
    let values := named.map Prod.snd
    let entries := named.map fun (name, value) =>
      (.constant value.line (.ofString (name.getD "")), value)
    let operands := if values.all Expression.isLiteral then positional else positional ++ values
    return positional ++ [.map (Expression.lastLine line operands) entries]

/-- Reads what follows a point: the name of a field, or the number of an element. -/
def member (base : Expression) : Parse Expression := do
  let line ← nextLine
  match ← peek with
  | some (.name s) =>
    discard next
    return .field base s
  | some (.number (.whole n .unsigned64)) =>
    discard next
    return .element base (.constant line (.ofInt n))
  | _ => unexpected

def steps (nested : Parse Expression) (line : Nat) :
    Nat → Expression → Parse Expression
  | 0, base => return base
  | n + 1, base => do
    if ← skipSign "." then
      steps nested line n (← member base)
    else if ← skipSign "[" then
      let key ← nested
      expectSign "]"
      steps nested line n (.element base key)
    else if ← skipSign "(" then
      match base with
      | .named _ name =>
        let args ← arguments nested line
        steps nested line n (.call (Expression.lastLine line args) name args)
      | base =>
        let args ← arguments nested base.line
        steps nested line n (.apply (Expression.lastLine base.line args) base args)
    else return base

/-- An operand behind any number of signs, with the fields, elements and calls behind it. -/
def signedSteps (parts : Parts) : Parse Expression := do
  let line ← nextLine
  let n ← bound
  steps parts.nested line n (← signed parts n)

def argumentsIfAny (nested : Parse Expression) (line : Nat) : Parse (List Expression) := do
  if ← skipSign "(" then arguments nested line else return []

def bareArgument (parts : Parts) : Parse (List Expression) := do
  let startsOperand :=
    match ← peek with
    | some (.name s) => !(["and", "or", "else", "is"].contains s)
    | some (.literal _) | some (.number _) => true
    | some (.sign s) => ["+", "-", "[", "\x7b"].contains s
    | _ => false
  if startsOperand then return [← signedSteps parts] else return []

def filters (parts : Parts) : Nat → Expression → Parse Expression
  | 0, base => return base
  | n + 1, base => do
    if ← skipSign "|" then
      let name ← expectName
      let args ← argumentsIfAny parts.nested base.line
      filters parts n (.filter (Expression.lastLine base.line args) base name args)
    else if ← skipName "is" then
      let negated ← skipName "not"
      let name ← expectName
      let args ←
        if isSign "(" (← peek) then argumentsIfAny parts.nested base.line
        else bareArgument parts
      let test := Expression.test (Expression.lastLine base.line args) base name args
      filters parts n (if negated then .not test else test)
    else return base

def factor (parts : Parts) : Parse Expression := do
  filters parts (← bound) (← signedSteps parts)

/-- The operands behind the first one that are joined to it by one operator. -/
def joined (sign : String) (part : Parse Expression) : Nat → Parse (List Expression)
  | 0 => return []
  | n + 1 => do
    if ← skipSign sign then
      let operand ← part
      return operand :: (← joined sign part n)
    else return []

def chain (sign : String) (combine : Expression → Expression → Expression)
    (part : Parse Expression) : Parse Expression := do
  let first ← part
  return (← joined sign part (← bound)).foldl combine first

def comparison (part : Parse Expression) : Parse Expression := do
  let first ← part
  match ← joined "==" part (← bound) with
  | [] => return first
  | others => return .equal first others

def negation (parts : Parts) : Nat → Parse Expression
  | 0 => unexpected
  | n + 1 => do
    if ← skipName "not" then
      return .not (← negation parts n)
    else
      comparison (chain "+" .sum (chain "~" .join (factor parts)))

/-- Reads an expression whose operands may begin so many levels. The expressions in the brackets of
an operand are two levels deeper, those behind an operand one. -/
def expressionWithin : Nat → Parse Expression
  | 0 => do negation ⟨tooDeep, tooDeep⟩ (← bound)
  | 1 => do negation ⟨operand tooDeep, expressionWithin 0⟩ (← bound)
  | levels + 2 => do
    negation ⟨operand (expressionWithin levels), expressionWithin (levels + 1)⟩ (← bound)

def expression : Nat → Parse Expression
  | 0 => tooDeep
  | levels + 1 => expressionWithin levels

/-! ### Statements -/

def reservedNames : List String :=
  ["true", "True", "false", "False", "none", "None", "loop", "self"]

def boundName : Parse String := do
  let name ← expectName
  if reservedNames.contains name then
    failAt (← get).line s!"cannot assign to reserved variable name {name}"
  return name

abbrev Body := List String → Parse (List Statement)

/-- Reads the branches of a conditional from its condition on, so many levels being left. -/
def branches (levels : Nat) (body : Body) : Nat → Parse Statement
  | 0 => unexpected
  | n + 1 => do
    let condition ← expressionWithin levels
    expectCloseStatement
    let positive ← body ["endif", "else", "elif"]
    match ← next with
    | some (.name "else") =>
      expectCloseStatement
      let negative ← body ["endif"]
      discard next
      return .conditional condition positive negative
    | some (.name "elif") => return .conditional condition positive [← branches levels body n]
    | _ => return .conditional condition positive []

/-- Reads the variable of a loop. There is none if the word `in` comes first. -/
def loopVariable : Parse (Option String) := do
  if isName "in" (← peek) then return none else return some (← boundName)

def forEach (levels : Nat) (body : Body) : Parse Statement := do
  let name ← loopVariable
  if !(← skipName "in") then unexpected
  let source ← expressionWithin levels
  expectCloseStatement
  let each ← body ["endfor", "else"]
  if ← skipName "else" then
    expectCloseStatement
    let otherwise ← body ["endfor"]
    discard next
    return .forEach name source each otherwise
  else
    discard next
    return .forEach name source each []

def block (line : Nat) (body : Body) : Parse Statement := do
  let name ← expectName
  if (← get).blocks.contains name then
    failAt (← get).line s!"block '{name}' defined twice"
  modify fun cursor => { cursor with blocks := name :: cursor.blocks }
  expectCloseStatement
  let inside ← body ["endblock"]
  discard next
  match ← peek with
  | some (.name trailing) =>
    if trailing == name then discard next
    else failAt (← get).line s!"block '{name}' is closed as '{trailing}'"
  | _ => pure ()
  return .block line name inside

/-- Reads a statement from its keyword on, so many levels being left inside it. -/
def statement (levels : Nat) (body : Body) : Parse Statement := do
  let line ← nextLine
  match ← expectName with
  | "set" =>
    let name ← boundName
    expectSign "="
    return .set name (← expression levels)
  | "if" => branches levels body (← bound)
  | "for" => forEach levels body
  | "include" => return .embed (← expression levels)
  | "extends" => return .inherit (← expression levels)
  | "block" => block line body
  | keyword => failAt line s!"unknown statement {keyword}"

def atWord (words : List String) : Parse Bool := do
  match ← peek with
  | some (.name s) => return words.contains s
  | _ => return false

/-- Reads statements up to a tag that begins with one of some words, its opener passed, or up to the
end of the page. The first number bounds the steps, the second the levels. -/
def statements : Nat → Nat → Body
  | 0, _, _ => unexpected
  | n + 1, levels, ends => do
    match ← next with
    | none => return []
    | some (.text s) => return .text s :: (← statements n levels ends)
    | some .openEcho =>
      let value ← expression levels
      expectCloseEcho
      return .echo value :: (← statements n levels ends)
    | some .openStatement =>
      if ← atWord ends then return []
      let first ←
        match levels with
        | 0 => tooDeep
        | inner + 1 => statement inner (statements n inner)
      expectCloseStatement
      return first :: (← statements n levels ends)
    | some _ => failAt (← get).line "unexpected token"

end Parse

def Page.parse (template : String) (code : List Char) : Except PageError Page := do
  let tokens := Token.ofPage code
  let parse := Parse.statements (tokens.length + 1) Parse.levelLimit []
  let (body, _) ← parse.run { ahead := tokens }
  return { template, body }

end ThemeTemplates
