import ThemeTemplates.Data.Basic

/-!
# Loop metadata

What a template sees of the innermost open loop, chained to the loops around it.
-/

namespace ThemeTemplates

structure LoopMetadata where
  index : Nat
  /-- Position from one; zero before the first item. -/
  iteration : Nat
  /-- How many items follow the current one. -/
  remaining : Nat
  count : Nat
  first : Bool
  last : Bool
  even : Bool
  odd : Bool
  /-- Nesting level, one for the outermost loop. -/
  depth : Nat
  parent : Option LoopMetadata
deriving Inhabited

namespace LoopMetadata

/-- The fields of the record in the order templates see them, without the enclosing loop. -/
def ownFields (loop : LoopMetadata) : List (String × Data) :=
  [("index", .int loop.index), ("iteration", .int loop.iteration),
    ("remaining", .int loop.remaining), ("count", .int loop.count), ("first", .bool loop.first),
    ("last", .bool loop.last), ("even", .bool loop.even), ("odd", .bool loop.odd),
    ("depth", .int loop.depth)]

def toData (loop : LoopMetadata) : Data :=
  match loop with
  | { parent := none, .. } => .ofFields loop.ownFields
  | { parent := some outer, .. } => .ofFields (loop.ownFields ++ [("parent", outer.toData)])

end LoopMetadata

end ThemeTemplates
