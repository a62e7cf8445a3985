import WhereEditor.Tree.Place
import WhereEditor.Tree.Selection

/-!
The tree of a draft: the row of the root group, and the id that the next node will get. Ids are
given out once and never again. Every operation takes any id; one that names nothing suitable has
the effect that is stated with the operation.
-/

namespace WhereEditor

structure Tree where
  row : Forest := .nil
  next : NodeId := 1
  deriving DecidableEq

namespace Tree

/-! ## Views -/

def row? (tree : Tree) (id : NodeId) : Option Forest :=
  if id = NodeId.root then some tree.row else tree.row.members? id

def contains (tree : Tree) (id : NodeId) : Bool := id == NodeId.root || tree.row.ids.contains id

def isGroup (tree : Tree) (id : NodeId) : Bool := (tree.row? id).isSome

def clause? (tree : Tree) (id : NodeId) : Option Clause := tree.row.clause? id

def children (tree : Tree) (id : NodeId) : List NodeId := ((tree.row? id).getD .nil).heads

def places (tree : Tree) (id : NodeId) : List Place := tree.row.places id

def parent? (tree : Tree) (id : NodeId) : Option NodeId := (tree.places id).head?.map (·.holder)

def index? (tree : Tree) (id : NodeId) : Option Nat := (tree.places id).head?.map (·.index)

def clauses (tree : Tree) : List (NodeId × Clause) := tree.row.clauses

def size (tree : Tree) : Nat := tree.clauses.length

def groupDepth (tree : Tree) (id : NodeId) : Nat := (tree.places id).length

def clauseDepth (tree : Tree) (id : NodeId) : Nat := (tree.places id).length - 1

/-- The depth of the deepest group at or below a group, not looking below the item at `skip`. -/
def reach (tree : Tree) (id : NodeId) (skip : Option Nat) : Nat :=
  let row := (tree.row? id).getD .nil
  tree.groupDepth id + (skip.elim row row.eraseIdx).height

def depth (tree : Tree) (id : NodeId) : Nat := tree.reach id none

def deepestGroup (tree : Tree) (id : NodeId) (skip : Option Nat) : NodeId :=
  let row := (tree.row? id).getD .nil
  ((skip.elim row row.eraseIdx).deepest?.map (·.1)).getD id

def selection (tree : Tree) (id : NodeId) : Selection := ((tree.row? id).getD .nil).selection

def run? (tree : Tree) (group : NodeId) : Option (Nat × Nat) :=
  (tree.row? group).bind fun row => Selection.run? row.selections

def canGroup (tree : Tree) (group : NodeId) : Bool := (tree.run? group).isSome

/-! ## Brackets

As many groups open before a node, or close after it, as it stands first, or last, in, one within the
other and each but the root.
-/

def innerPlaces (tree : Tree) (id : NodeId) : List Place := (tree.places id).dropLast

def opening (tree : Tree) (id : NodeId) : Nat :=
  ((tree.innerPlaces id).takeWhile Place.isFirst).length

def closing (tree : Tree) (id : NodeId) : Nat :=
  ((tree.innerPlaces id).takeWhile Place.isLast).length

/-! ## Edits -/

def updateClause (tree : Tree) (id : NodeId) (edit : Clause → Clause) : Tree :=
  { tree with row := tree.row.updateClause id edit }

def updateRow (tree : Tree) (group : NodeId) (edit : Forest → Forest) : Tree :=
  { tree with
    row := if group = NodeId.root then edit tree.row else tree.row.updateMembers group edit }

/-- Adds a clause at the end of a group, of the root if `group` is none. Like every new clause it
gets the id `tree.next`. -/
def append (tree : Tree) (group : NodeId) (body : Clause) : Tree :=
  let group := if tree.isGroup group then group else NodeId.root
  { tree.updateRow group (· ++ .clause tree.next body .nil) with next := tree.next + 1 }

def insertBefore (tree : Tree) (group : NodeId) (anchor : Option NodeId) (body : Clause) : Tree :=
  match anchor.filter tree.row.ids.contains with
  | some place =>
      { row := tree.row.insertBefore place tree.next body, next := tree.next + 1 }
  | none => tree.append group body

def insertAfter (tree : Tree) (anchor : NodeId) (body : Clause) : Tree :=
  if anchor ∈ tree.row.ids then
    { row := tree.row.insertAfter anchor tree.next body, next := tree.next + 1 }
  else tree.append NodeId.root body

/-- Takes out a clause or a group; the root stays, and so do groups with two members or more. -/
def delete (tree : Tree) (id : NodeId) : Tree := { tree with row := tree.row.erase id }

def clear (tree : Tree) : Tree := { tree with row := .nil }

def ungroup (tree : Tree) (id : NodeId) : Tree := { tree with row := tree.row.ungroup id }

def unselect (tree : Tree) (group : NodeId) : Tree := tree.updateRow group Forest.unselect

/-- Wraps the marked run of a group into a new group with the id `tree.next` and takes away every
mark below the old one. Refused where there is no run to wrap. -/
def groupSelected? (tree : Tree) (group : NodeId) : Option Tree :=
  (tree.run? group).map fun (start, count) =>
    { (tree.updateRow group (·.wrap start count tree.next)).unselect group with
      next := tree.next + 1 }

end Tree

end WhereEditor
