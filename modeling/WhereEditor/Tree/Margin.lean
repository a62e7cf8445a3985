import WhereEditor.Tree.Basic

/-!
The margin at the left of a clause's row, in which the brackets of its groups are drawn. It has as
many cells as the deepest group of the tree is deep. A group's vertical line stands in one column
for all of its clauses, so where a neighbouring branch nests deeper, the cells between that line
and the clause are filled with the group as well.
-/

namespace WhereEditor

structure Cell where
  group : Option NodeId := none
  depth : Nat := 0
  /-- The innermost cell of the group, on its first clause. -/
  isFirst : Bool := false
  hasTop : Bool := false
  hasBottom : Bool := false
  /-- The outermost cell of the group, where its line is drawn. -/
  hasLine : Bool := false
  deriving DecidableEq

def Cell.empty : Cell := {}

namespace Tree

def cellsOf (group : NodeId) (depth extra : Nat) (first last : Bool) : List Cell :=
  (List.range (extra + 1)).map fun step =>
    { group := some group, depth, isFirst := step == 0 && first, hasTop := first, hasBottom := last,
      hasLine := step == extra }

/-- The cells of the groups around a node, from it outwards: `skip` is the item of the next row
that has been dealt with, `reached` the depth up to which there are cells, `first` and `last` tell
whether all the way was at the front or at the end. -/
def cellsFrom (tree : Tree) (skip : Option Nat) (reached : Nat) (first last : Bool) :
    List Place → List Cell
  | [] => []
  | [_] => []
  | place :: outer :: beyond =>
      let deepest := tree.reach place.holder skip
      let first := first && place.isFirst
      let last := last && place.isLast
      cellsOf place.holder (tree.groupDepth place.holder) (deepest - reached) first last ++
        tree.cellsFrom (some outer.index) (max reached deepest) first last (outer :: beyond)

def margin (tree : Tree) (id : NodeId) : List Cell :=
  let width := tree.depth NodeId.root
  let places := tree.places id
  let cells := (tree.cellsFrom none (places.length - 1) true true places).take width
  List.replicate (width - cells.length) Cell.empty ++ cells.reverse

end Tree

end WhereEditor
