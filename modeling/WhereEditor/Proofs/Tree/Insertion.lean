import WhereEditor.Proofs.Tree.Growth

/-!
A clause that is put directly after a node. Main statement: it is the next item in the row of that
node, and all other nodes keep their parents and their items. No edit of a clause changes these.
-/

namespace WhereEditor

namespace Forest

theorem members?_updateClause (row : Forest) (target id : NodeId) (edit : Clause → Clause) :
    (row.updateClause id edit).members? target =
      (row.members? target).map (updateClause id edit) := by
  induction row with
  | nil => rfl
  | clause node body rest ih => exact ih
  | group node members rest inner ih =>
      rw [updateClause, members?_group, members?_group, inner, ih]
      split
      · rfl
      · rw [Option.map_or]

theorem actsAt_updateClause (target : NodeId) (edit : Clause → Clause) :
    ActsAt target (updateClause target edit) := by
  refine actsAt_of_steps rfl ?_ (fun _ => rfl) ?_ ?_
  · intro id body rest other
    rw [updateClause, if_neg other]
  · intro body rest tail later
    rw [updateClause, later]
    rfl
  · intro members rest tail later
    rw [updateClause, later]
    rfl

end Forest

namespace Tree

variable {tree grown : Tree} {holder id fresh : NodeId} {edit : Clause → Clause}

def Follows (tree : Tree) (holder id fresh : NodeId) (grown : Tree) : Prop :=
  tree.parent? id = some holder ∧
    ∃ before beyond, tree.Grows fresh holder (before ++ [id]) beyond grown

theorem contains_updateClause (tree : Tree) (id : NodeId) (edit : Clause → Clause) :
    (tree.updateClause id edit).contains = tree.contains := by
  funext node
  rw [contains, contains, updateClause, Forest.ids_updateClause]

theorem isGroup_updateClause (tree : Tree) (id : NodeId) (edit : Clause → Clause) (node : NodeId) :
    (tree.updateClause id edit).isGroup node = tree.isGroup node ∧
      (tree.updateClause id edit).children node = tree.children node := by
  have whole : tree.row = tree.row.within [] := rfl
  have after : (tree.updateClause id edit).row = (tree.row.updateClause id edit).within [] := rfl
  exact isGroup_eq_of_map whole after (Forest.heads_updateClause · id edit)
    (Forest.members?_updateClause · · id edit) node

namespace Sound

theorem parent?_updateClause (sound : tree.Sound) (id : NodeId) (edit : Clause → Clause) :
    (tree.updateClause id edit).parent? = tree.parent? :=
  sound.parent?_eq_of_children (sound.updateClause id edit) fun group =>
    (tree.isGroup_updateClause id edit group).2

theorem follows_of_updateClause (sound : tree.Sound) {changed : NodeId}
    (follows : (tree.updateClause changed edit).Follows holder id fresh grown) :
    tree.Follows holder id fresh grown := by
  obtain ⟨up, before, beyond, new, contains, row, groups, parent, parents⟩ := follows
  simp only [contains_updateClause, isGroup_updateClause, sound.parent?_updateClause] at *
  exact ⟨up, before, beyond, new, contains, row, groups, parent, parents⟩

theorem follows_insertAfter (sound : tree.Sound) (member : id ∈ tree.row.ids) (body : Clause) :
    ∃ holder, tree.Follows holder id tree.next (tree.insertAfter id body) := by
  obtain ⟨holder, before, beyond, _, _, _, up, _, _, gains⟩ :=
    sound.gainsAfter_insertAfter member body
  exact ⟨holder, up, before, beyond, gains.toGrows⟩

end Sound

end Tree

end WhereEditor
