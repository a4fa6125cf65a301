/-!
# Kinds of loop

The two directives that iterate. Only `@loop` makes its items the current item.
-/

namespace ThemeTemplates

inductive LoopKind where
  | loop
  | simpleMenu
deriving DecidableEq, Repr

namespace LoopKind

def name : LoopKind → String
  | loop => "loop"
  | simpleMenu => "simplemenu"

def ofName? : String → Option LoopKind
  | "loop" => some loop
  | "simplemenu" => some simpleMenu
  | _ => none

def bindsCurrentItem : LoopKind → Bool
  | loop => true
  | simpleMenu => false

theorem ofName?_name (kind : LoopKind) : ofName? kind.name = some kind := by
  cases kind <;> rfl

end LoopKind

end ThemeTemplates
