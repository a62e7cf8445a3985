import WhereEditor.Proofs.Tree.Ascent

/-!
Two trees that differ in one row only. Main statements: a group that is not in that row, and does not
hold it, has the same items in both; and a node that is held by the same groups in both has the same
parent.
-/

namespace WhereEditor

namespace Forest

variable {row other : Forest} {layers : List Layer} {holder target : NodeId}

def rowIn? (holder target : NodeId) (row : Forest) : Option Forest :=
  if target = holder then some row else row.members? target

theorem members?_group_eq_or (id : NodeId) (members rest : Forest) :
    (group id members rest).members? target =
      (members.rowIn? id target).or (rest.members? target) := by
  rw [members?_group, rowIn?]
  by_cases same : id = target
  · rw [if_pos same, if_pos same.symm, Option.some_or]
  · rw [if_neg same, if_neg (Ne.symm same)]

/-- An edit of a row leaves the items of a group as they are if it does so within the row. -/
theorem map_heads_rowIn?_within
    (same : (other.rowIn? (Layer.holder layers) target).map heads =
      (row.rowIn? (Layer.holder layers) target).map heads) :
    ((other.within layers).rowIn? NodeId.root target).map heads =
      ((row.within layers).rowIn? NodeId.root target).map heads := by
  induction layers generalizing row other with
  | nil => exact same
  | cons layer outer ih =>
      refine ih ?_
      rw [Layer.holder] at same
      by_cases held : target = Layer.holder outer
      · simp [rowIn?, held, heads]
      · rw [rowIn?, rowIn?, if_neg held, if_neg held, members?_append, members?_append,
          members?_group_eq_or, members?_group_eq_or, Option.map_or, Option.map_or, Option.map_or,
          Option.map_or, same]

end Forest

namespace Tree

variable {tree other : Tree} {id fresh : NodeId}

theorem children_eq_map_heads (tree : Tree) (id : NodeId) :
    tree.children id = ((tree.row? id).map Forest.heads).getD [] := by
  rw [children]
  cases tree.row? id <;> rfl

theorem isGroup_eq_of_map_heads
    (same : (other.row? id).map Forest.heads = (tree.row? id).map Forest.heads) :
    other.isGroup id = tree.isGroup id ∧ other.children id = tree.children id := by
  constructor
  · rw [isGroup, isGroup, ← Option.isSome_map, same, Option.isSome_map]
  · rw [children_eq_map_heads, children_eq_map_heads, same]

theorem isGroup_eq_of_within {row changed : Forest} {layers : List Layer}
    (whole : tree.row = row.within layers) (after : other.row = changed.within layers)
    (same : (changed.rowIn? (Layer.holder layers) id).map Forest.heads =
      (row.rowIn? (Layer.holder layers) id).map Forest.heads) :
    other.isGroup id = tree.isGroup id ∧ other.children id = tree.children id := by
  have kept := Forest.map_heads_rowIn?_within same
  rw [← whole, ← after] at kept
  exact isGroup_eq_of_map_heads kept

/-- An edit that goes through a row and keeps the heads of every row keeps the items of every group. -/
theorem isGroup_eq_of_map {row : Forest} {layers : List Layer} {edit : Forest → Forest}
    (whole : tree.row = row.within layers) (after : other.row = (edit row).within layers)
    (heads : ∀ row : Forest, (edit row).heads = row.heads)
    (members : ∀ (row : Forest) target, (edit row).members? target = (row.members? target).map edit)
    (id : NodeId) : other.isGroup id = tree.isGroup id ∧ other.children id = tree.children id := by
  refine isGroup_eq_of_within whole after ?_
  rw [Forest.rowIn?, Forest.rowIn?]
  by_cases held : id = Layer.holder layers
  · rw [if_pos held, if_pos held, Option.map_some, Option.map_some, heads]
  · rw [if_neg held, if_neg held, members, Option.map_map]
    congr 1
    exact funext heads

theorem contains_iff_of_perm (more : other.row.ids.Perm (fresh :: tree.row.ids)) (node : NodeId) :
    other.contains node = true ↔ tree.contains node = true ∨ node = fresh := by
  rw [contains_iff, contains_iff, more.mem_iff, List.mem_cons, or_assoc, or_comm (a := node = fresh)]

theorem Sound.contains_next (sound : tree.Sound) : tree.contains tree.next = false := by
  rw [← Bool.not_eq_true, contains_iff, not_or]
  exact ⟨Nat.ne_of_gt sound.started, sound.next_not_mem⟩

theorem Sound.parent?_eq_of_mem_children_iff (sound : tree.Sound) (otherSound : other.Sound)
    (same : ∀ group, id ∈ other.children group ↔ id ∈ tree.children group) :
    other.parent? id = tree.parent? id := by
  refine Option.ext fun parent => ?_
  rw [← otherSound.mem_children_iff_parent?, same, sound.mem_children_iff_parent?]

theorem Sound.parent?_eq_of_children (sound : tree.Sound) (otherSound : other.Sound)
    (same : ∀ group, other.children group = tree.children group) : other.parent? = tree.parent? := by
  funext id
  refine sound.parent?_eq_of_mem_children_iff otherSound fun group => ?_
  rw [same group]

end Tree

end WhereEditor
