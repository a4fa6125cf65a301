import ThemeTemplates.Data.Fields
import ThemeTemplates.Directive.Error

/-!
# Directives

A directive turns `@name(arguments)` into code of the page language. Directives that open, continue
or close a block say so in their role, by which nesting is checked before anything is rendered. A
registry holds one directive for each name.
-/

namespace ThemeTemplates

/-- The place of a directive in a block of a named group. -/
inductive Role where
  | inline
  | opens (group : String)
  | continues (group : String)
  | closes (group : String)
deriving DecidableEq, Repr

structure Directive where
  name : String
  role : Role := .inline
  /-- Whether `@name items as $item` without parentheses is accepted too. -/
  bareIteration : Bool := false
  /-- The code for an argument text, which comes as written, parentheses included. -/
  expand : List Char → Except CompileError (List Char)

structure Registry where
  entries : Fields Directive := []

namespace Registry

def empty : Registry := {}

def find? (registry : Registry) (name : String) : Option Directive :=
  registry.entries.find? name

def contains (registry : Registry) (name : String) : Bool :=
  registry.entries.contains name

def register (registry : Registry) (directive : Directive) : Registry where
  entries := registry.entries.insert directive.name directive

def remove (registry : Registry) (name : String) : Registry where
  entries := registry.entries.erase name

def names (registry : Registry) : List String :=
  registry.entries.keys

def ofList (directives : List Directive) : Registry :=
  directives.foldl register empty

def expand (registry : Registry) (name : String) (args : List Char) :
    Except CompileError (List Char) :=
  match registry.find? name with
  | some directive => directive.expand args
  | none => .error (.unknownDirective name)

theorem find?_register (registry : Registry) (directive : Directive) (name : String) :
    (registry.register directive).find? name =
      if name = directive.name then some directive else registry.find? name :=
  Fields.find?_insert ..

theorem find?_remove (registry : Registry) (removed name : String) :
    (registry.remove removed).find? name =
      if name = removed then none else registry.find? name :=
  Fields.find?_erase ..

end Registry

end ThemeTemplates
