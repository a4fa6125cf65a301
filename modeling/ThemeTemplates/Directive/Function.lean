/-!
# Functions of the directives

The functions that emitted code calls. They keep the loop stack and ask the site; their names begin
with two underscores, so they do not meet the names of themes.
-/

namespace ThemeTemplates

inductive PageFunction where
  | loopPush
  | loopNext
  | loopPop
  | currentQuery
  | navMenu
  | paginate
  | renderChild
  | postType
  | currentItem
  | setCurrentItem
  | resetCurrentItem
  | can
  | canAny
  | auth
  | invoke
deriving DecidableEq, Repr

namespace PageFunction

def name : PageFunction → String
  | loopPush => "__loop_push"
  | loopNext => "__loop_next"
  | loopPop => "__loop_pop"
  | currentQuery => "__current_query"
  | navMenu => "__nav_menu"
  | paginate => "__paginate"
  | renderChild => "__render_child"
  | postType => "__post_type"
  | currentItem => "__current_item"
  | setCurrentItem => "__set_current_item"
  | resetCurrentItem => "__reset_current_item"
  | can => "__can"
  | canAny => "__can_any"
  | auth => "__auth"
  | invoke => "__invoke"

def all : List PageFunction :=
  [loopPush, loopNext, loopPop, currentQuery, navMenu, paginate, renderChild, postType, currentItem,
    setCurrentItem, resetCurrentItem, can, canAny, auth, invoke]

def ofName? (name : String) : Option PageFunction :=
  all.find? fun function => function.name == name

theorem ofName?_name (function : PageFunction) : ofName? function.name = some function := by
  cases function <;> decide +kernel

def call (function : PageFunction) (args : List Char) : List Char :=
  function.name.toList ++ '(' :: (args ++ [')'])

end PageFunction

end ThemeTemplates
