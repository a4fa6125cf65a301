import ThemeTemplates.Data.Fields
import ThemeTemplates.Page.Value

/-!
# The parts of a page

Expressions and statements. Whatever can fail holds the line its complaint is given: that of the
last operand written in it, or its own if it has none. A list or a map of literals is one operand
and stands on the line it begins on.
-/

namespace ThemeTemplates

inductive Expression where
  | constant (line : Nat) (value : Value)
  | named (line : Nat) (name : String)
  | list (line : Nat) (items : List Expression)
  | map (line : Nat) (entries : List (Expression × Expression))
  | field (base : Expression) (name : String)
  | element (base key : Expression)
  | call (line : Nat) (function : String) (args : List Expression)
  /-- A call of the value of an expression. -/
  | apply (line : Nat) (base : Expression) (args : List Expression)
  | filter (line : Nat) (base : Expression) (name : String) (args : List Expression)
  | test (line : Nat) (base : Expression) (name : String) (args : List Expression)
  | not (operand : Expression)
  | negate (line : Nat) (operand : Expression)
  /-- Whether each of some operands equals the next. -/
  | equal (first : Expression) (others : List Expression)
  | sum (left right : Expression)
  | join (left right : Expression)
deriving Inhabited

namespace Expression

def isLiteral : Expression → Bool
  | constant _ _ => true
  | _ => false

mutual
def line : Expression → Nat
  | constant line _ | named line _ | list line _ | map line _ => line
  | call line _ _ | apply line _ _ | filter line _ _ _ | test line _ _ _ => line
  | field base _ => base.line
  | element _ key => key.line
  | negate line (.constant _ _) => line
  | not operand | negate _ operand => operand.line
  | equal first others => lastLine first.line others
  | sum _ right | join _ right => right.line

def lastLine (default : Nat) : List Expression → Nat
  | [] => default
  | operand :: rest => lastLine operand.line rest
end

def listFrom (line : Nat) (items : List Expression) : Expression :=
  list (if items.all isLiteral then line else lastLine line items) items

def mapFrom (line : Nat) (entries : List (Expression × Expression)) : Expression :=
  let isLiteral := entries.all fun (key, value) => key.isLiteral && value.isLiteral
  map (if isLiteral then line else lastLine line (entries.map Prod.snd)) entries

end Expression

inductive Statement where
  | text (s : String)
  | echo (value : Expression)
  | set (name : String) (value : Expression)
  | conditional (condition : Expression) (body otherwise : List Statement)
  /-- Runs its body for each element of a value, which is bound to a variable. Without a variable,
  the elements have to be empty. -/
  | forEach (name : Option String) (source : Expression) (body otherwise : List Statement)
  | embed (template : Expression)
  | inherit (template : Expression)
  | block (line : Nat) (name : String) (body : List Statement)

/-- Part of a page that other pages can replace, with the template it is written in. -/
structure Block where
  template : String
  body : List Statement

structure Page where
  template : String
  body : List Statement

mutual
def Statement.blocks : Statement → List (String × List Statement)
  | block _ name body => (name, body) :: blocksOf body
  | conditional _ body otherwise => blocksOf body ++ blocksOf otherwise
  | forEach _ _ body otherwise => blocksOf body ++ blocksOf otherwise
  | _ => []

def Statement.blocksOf : List Statement → List (String × List Statement)
  | [] => []
  | statement :: rest => statement.blocks ++ blocksOf rest
end

def Page.blocks (page : Page) : Fields Block :=
  Fields.ofList <| (Statement.blocksOf page.body).map fun (name, body) =>
    (name, ⟨page.template, body⟩)

end ThemeTemplates
