import WhereEditor.Tree.Basic

/-!
Edits of a tree as data, and the trees that runs of edits lead to. Any id may be named in an edit,
also one that has never been given out or whose node is gone.
-/

namespace WhereEditor.Tree

inductive Edit where
  | insertBefore (group : NodeId) (anchor : Option NodeId) (body : Clause)
  | insertAfter (anchor : NodeId) (body : Clause)
  | delete (id : NodeId)
  | clear
  /-- Groups the marked run of a group, if there is one. -/
  | group (holder : NodeId)
  | ungroup (id : NodeId)
  | unselect (group : NodeId)
  /-- Puts any other clause in the place of one, under the same id. -/
  | change (id : NodeId) (edit : Clause → Clause)

def Edit.Outermost : Edit → Prop
  | group holder => holder = NodeId.root
  | _ => True

def apply (tree : Tree) : Edit → Tree
  | .insertBefore group anchor body => tree.insertBefore group anchor body
  | .insertAfter anchor body => tree.insertAfter anchor body
  | .delete id => tree.delete id
  | .clear => tree.clear
  | .group holder => (tree.groupSelected? holder).getD tree
  | .ungroup id => tree.ungroup id
  | .unselect group => tree.unselect group
  | .change id edit => tree.updateClause id edit

def after (edits : List Edit) : Tree := edits.foldl apply {}

namespace Edit

/-- Adds a clause at the end of the root. -/
def fresh (body : Clause := .blank .tables) : Edit := insertBefore NodeId.root none body

def mark (id : NodeId) : Edit := change id fun clause => { clause with selected := true }

end Edit

theorem foldl_after (edits further : List Edit) :
    further.foldl apply (after edits) = after (edits ++ further) := List.foldl_append.symm

end WhereEditor.Tree
