import WhereEditor.Tree.Forest

/-!
Where a node stands: its place in the row of its group, that group's place in its own row, and so
on up to the root. All that depends on the way up to the root is read off this list of places.
-/

namespace WhereEditor

structure Place where
  /-- The group whose row it is. -/
  holder : NodeId
  index : Nat
  count : Nat
  deriving DecidableEq

namespace Place

def isFirst (place : Place) : Bool := place.index == 0

def isLast (place : Place) : Bool := place.index + 1 == place.count

end Place

namespace Forest

/-- The places from a node outwards, in a row of `count` items of which `index` have gone by. -/
def placesFrom? (target holder : NodeId) (count index : Nat) : Forest → Option (List Place)
  | nil => none
  | clause id _ rest =>
      if id = target then some [⟨holder, index, count⟩]
      else rest.placesFrom? target holder count (index + 1)
  | group id members rest =>
      if id = target then some [⟨holder, index, count⟩]
      else match members.placesFrom? target id members.width 0 with
        | some inner => some (inner ++ [⟨holder, index, count⟩])
        | none => rest.placesFrom? target holder count (index + 1)

def places (row : Forest) (target : NodeId) : List Place :=
  (row.placesFrom? target NodeId.root row.width 0).getD []

end Forest

end WhereEditor
