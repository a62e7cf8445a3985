import Mathlib.Data.List.Perm.Subperm
import WhereEditor.Proofs.Tree.Edit
import WhereEditor.Proofs.Tree.Selection

/-!
The invariant of a tree: its ids are distinct, have been given out, and are none of them the
root's, and every group has a least number of items. Main statements: every run of edits keeps it
for one item, and every run that groups at the root only keeps it for two.
-/

namespace WhereEditor.Tree

structure Sound (tree : Tree) (least : Nat := 1) : Prop where
  distinct : tree.row.ids.Nodup
  numbered : ∀ id ∈ tree.row.ids, NodeId.root < id ∧ id < tree.next
  started : NodeId.root < tree.next
  occupied : tree.row.AtLeast least

theorem updateRow_of_row?_eq_none (tree : Tree) (group : NodeId) (missing : tree.row? group = none)
    (edit : Forest → Forest) : tree.updateRow group edit = tree := by
  simp only [row?] at missing
  split at missing
  · exact absurd missing (by simp)
  · rename_i inner
    rw [updateRow, if_neg inner, Forest.updateMembers_of_members?_eq_none missing]

theorem exists_row?_holder (tree : Tree) (group : NodeId) :
    ∃ row, tree.row? (if tree.isGroup group then group else NodeId.root) = some row := by
  split
  · rename_i isGroup
    exact Option.isSome_iff_exists.mp isGroup
  · exact ⟨tree.row, if_pos rfl⟩

theorem updateRow_updateRow (tree : Tree) (group : NodeId) (first second : Forest → Forest) :
    (tree.updateRow group first).updateRow group second =
      tree.updateRow group fun row => second (first row) := by
  by_cases outer : group = NodeId.root
  · simp [updateRow, outer]
  · simp [updateRow, outer, Forest.updateMembers_updateMembers]

namespace Sound

variable {tree : Tree} {least : Nat}

theorem root_not_mem (sound : tree.Sound least) : NodeId.root ∉ tree.row.ids := fun member =>
  Nat.lt_irrefl _ (sound.numbered _ member).1

theorem next_not_mem (sound : tree.Sound least) : tree.next ∉ tree.row.ids := fun member =>
  Nat.lt_irrefl _ (sound.numbered _ member).2

theorem empty : Sound {} least where
  distinct := List.nodup_nil
  numbered := fun _ member => absurd member List.not_mem_nil
  started := Nat.zero_lt_one
  occupied := trivial

theorem mono {fewer : Nat} (le : fewer ≤ least) (sound : tree.Sound least) : tree.Sound fewer :=
  { sound with occupied := sound.occupied.mono le }

theorem of_sublist (sound : tree.Sound least) {row : Forest} (fewer : row.ids.Sublist tree.row.ids)
    (occupied : row.AtLeast least) : Sound { tree with row } least where
  distinct := sound.distinct.sublist fewer
  numbered := fun id member => sound.numbered id (fewer.subset member)
  started := sound.started
  occupied := occupied

theorem of_perm (sound : tree.Sound least) {row : Forest}
    (more : row.ids.Perm (tree.next :: tree.row.ids)) (occupied : row.AtLeast least) :
    Sound { row, next := tree.next + 1 } least where
  distinct := more.nodup_iff.mpr (List.nodup_cons.mpr ⟨sound.next_not_mem, sound.distinct⟩)
  numbered := by
    intro id member
    rcases List.mem_cons.mp (more.subset member) with fresh | old
    · subst fresh
      exact ⟨sound.started, Nat.lt_succ_self _⟩
    · have bounds := sound.numbered id old
      exact ⟨bounds.1, Nat.lt_succ_of_lt bounds.2⟩
  started := Nat.lt_succ_of_lt sound.started
  occupied := occupied

/-! ## Edits of the row of a group -/

theorem atLeast_row? (sound : tree.Sound least) {group : NodeId} {row : Forest}
    (found : tree.row? group = some row) : row.AtLeast least := by
  simp only [row?] at found
  split at found
  · exact Option.some.inj found ▸ sound.occupied
  · exact (sound.occupied.members? found).2

theorem exists_ids_updateRow (sound : tree.Sound least) {group : NodeId} {row : Forest}
    (found : tree.row? group = some row) :
    ∃ before beyond, tree.row.ids = before ++ (row.ids ++ beyond) ∧
      ∀ edit, (tree.updateRow group edit).row.ids = before ++ ((edit row).ids ++ beyond) := by
  simp only [row?] at found
  split at found
  · rename_i outer
    cases found
    refine ⟨[], [], by simp, fun edit => ?_⟩
    rw [updateRow, if_pos outer]
    simp
  · rename_i inner
    obtain ⟨before, beyond, whole, edited⟩ := Forest.exists_ids_updateMembers sound.distinct found
    refine ⟨before, beyond, whole, fun edit => ?_⟩
    rw [updateRow, if_neg inner]
    exact edited edit

theorem atLeast_updateRow (sound : tree.Sound least) {group : NodeId} {row : Forest}
    (found : tree.row? group = some row) {edit : Forest → Forest}
    (enough : group ≠ NodeId.root → least ≤ row.width → least ≤ (edit row).width)
    (edited : (edit row).AtLeast least) : (tree.updateRow group edit).row.AtLeast least := by
  simp only [row?] at found
  split at found
  · rename_i outer
    cases found
    rw [updateRow, if_pos outer]
    exact edited
  · rename_i inner
    rw [updateRow, if_neg inner]
    have inhabited := (sound.occupied.members? found).1
    exact sound.occupied.updateMembers sound.distinct found (enough inner inhabited) edited

theorem ids_updateRow_perm (sound : tree.Sound least) {group : NodeId} {row : Forest}
    (found : tree.row? group = some row) {edit : Forest → Forest}
    (more : (edit row).ids.Perm (tree.next :: row.ids)) :
    (tree.updateRow group edit).row.ids.Perm (tree.next :: tree.row.ids) := by
  obtain ⟨before, beyond, whole, ids⟩ := sound.exists_ids_updateRow found
  rw [ids edit, whole]
  exact ((more.append_right beyond).append_left before).trans List.perm_middle

theorem updateRow_fresh (sound : tree.Sound least) {group : NodeId} {row : Forest}
    (found : tree.row? group = some row) {edit : Forest → Forest}
    (more : (edit row).ids.Perm (tree.next :: row.ids))
    (enough : group ≠ NodeId.root → least ≤ row.width → least ≤ (edit row).width)
    (edited : (edit row).AtLeast least) :
    Sound { tree.updateRow group edit with next := tree.next + 1 } least :=
  sound.of_perm (sound.ids_updateRow_perm found more) (sound.atLeast_updateRow found enough edited)

theorem exists_layers (sound : tree.Sound least) {group : NodeId} {row : Forest}
    (found : tree.row? group = some row) :
    ∃ layers, Layer.holder layers = group ∧ tree.row = row.within layers ∧
      ∀ edit, (tree.updateRow group edit).row = (edit row).within layers := by
  simp only [row?] at found
  split at found
  · rename_i outer
    cases found
    exact ⟨[], outer.symm, rfl, fun edit => if_pos outer⟩
  · rename_i inner
    obtain ⟨left, right, layers, whole⟩ :=
      Forest.exists_layers_of_members? sound.distinct found
    refine ⟨⟨left, group, right⟩ :: layers, rfl, whole, fun edit => ?_⟩
    have distinct : ((left ++ (.group group row .nil ++ right)).within layers).ids.Nodup :=
      whole ▸ sound.distinct
    rw [updateRow, if_neg inner, whole]
    refine ((Forest.actsAt_updateMembers group edit).cut distinct (.group row)).trans ?_
    simp [Forest.updateMembers, Forest.within]

theorem length_ids_lt_next (sound : tree.Sound least) : tree.row.ids.length < tree.next := by
  have distinct : (NodeId.root :: tree.row.ids).Nodup :=
    List.nodup_cons.mpr ⟨sound.root_not_mem, sound.distinct⟩
  have given : NodeId.root :: tree.row.ids ⊆ List.range tree.next := by
    intro id member
    rcases List.mem_cons.mp member with rfl | inside
    · exact List.mem_range.mpr sound.started
    · exact List.mem_range.mpr (sound.numbered id inside).2
  have fewer := (distinct.subperm given).length_le
  rwa [List.length_cons, List.length_range] at fewer

theorem le_length_children (sound : tree.Sound least) {id : NodeId} (inner : id ≠ NodeId.root)
    (isGroup : tree.isGroup id = true) : least ≤ (tree.children id).length := by
  obtain ⟨row, found⟩ := Option.isSome_iff_exists.mp isGroup
  rw [children, found, Option.getD_some]
  rw [row?, if_neg inner] at found
  exact (sound.occupied.members? found).1

/-! ## The edits one by one -/

theorem ids_append_perm (sound : tree.Sound least) (group : NodeId) (body : Clause) :
    (tree.append group body).row.ids.Perm (tree.next :: tree.row.ids) := by
  obtain ⟨row, found⟩ := tree.exists_row?_holder group
  refine sound.ids_updateRow_perm found ?_
  rw [Forest.ids_append]
  exact List.perm_append_comm

theorem append (sound : tree.Sound least) (group : NodeId) (body : Clause) :
    (tree.append group body).Sound least := by
  obtain ⟨row, found⟩ := tree.exists_row?_holder group
  refine sound.of_perm (sound.ids_append_perm group body) (sound.atLeast_updateRow found ?_ ?_)
  · intro _ inhabited
    rw [Forest.width_append]
    omega
  · exact (Forest.atLeast_append _ _).mpr ⟨sound.atLeast_row? found, trivial⟩

theorem ids_insertBefore_perm (sound : tree.Sound least) (group : NodeId)
    (anchor : Option NodeId) (body : Clause) :
    (tree.insertBefore group anchor body).row.ids.Perm (tree.next :: tree.row.ids) := by
  simp only [Tree.insertBefore]
  split
  · rename_i place here
    have present : place ∈ tree.row.ids := by simpa using (Option.filter_eq_some_iff.mp here).2
    exact tree.row.ids_insertBefore_perm place _ body sound.distinct present
  · exact sound.ids_append_perm group body

theorem insertBefore (sound : tree.Sound least) (group : NodeId) (anchor : Option NodeId)
    (body : Clause) : (tree.insertBefore group anchor body).Sound least := by
  have more := sound.ids_insertBefore_perm group anchor body
  simp only [Tree.insertBefore] at more ⊢
  split at more
  · exact sound.of_perm more (sound.occupied.insertBefore _ _ body)
  · exact sound.append group body

theorem ids_insertAfter_perm (sound : tree.Sound least) (anchor : NodeId) (body : Clause) :
    (tree.insertAfter anchor body).row.ids.Perm (tree.next :: tree.row.ids) := by
  simp only [Tree.insertAfter]
  split
  · rename_i present
    have before := tree.row.ids_insertBefore_perm anchor tree.next body sound.distinct present
    exact (tree.row.ids_insertAfter_perm anchor _ body).trans before
  · exact sound.ids_append_perm NodeId.root body

theorem insertAfter (sound : tree.Sound least) (anchor : NodeId) (body : Clause) :
    (tree.insertAfter anchor body).Sound least := by
  have more := sound.ids_insertAfter_perm anchor body
  rw [Tree.insertAfter] at more ⊢
  by_cases present : anchor ∈ tree.row.ids
  · rw [if_pos present] at more ⊢
    exact sound.of_perm more (sound.occupied.insertAfter anchor _ body)
  · rw [if_neg present]
    exact sound.append NodeId.root body

theorem delete (sound : tree.Sound least) (small : least ≤ 2) (id : NodeId) :
    (tree.delete id).Sound least :=
  sound.of_sublist (tree.row.ids_erase_sublist id) (sound.occupied.erase small id)

theorem clear (sound : tree.Sound least) : tree.clear.Sound least :=
  sound.of_sublist (List.nil_sublist _) trivial

theorem ungroup (sound : tree.Sound least) (positive : 1 ≤ least) (id : NodeId) :
    (tree.ungroup id).Sound least :=
  sound.of_sublist (tree.row.ids_ungroup_sublist id) (sound.occupied.ungroup positive id)

theorem updateClause (sound : tree.Sound least) (id : NodeId) (edit : Clause → Clause) :
    (tree.updateClause id edit).Sound least := by
  have same : (tree.row.updateClause id edit).ids = tree.row.ids :=
    tree.row.ids_updateClause id edit
  exact sound.of_sublist (same ▸ List.Sublist.refl _) (sound.occupied.updateClause id edit)

theorem ids_unselect (sound : tree.Sound least) (group : NodeId) :
    (tree.unselect group).row.ids = tree.row.ids := by
  cases found : tree.row? group with
  | none => rw [Tree.unselect, updateRow_of_row?_eq_none tree group found]
  | some row =>
      obtain ⟨before, beyond, whole, ids⟩ := sound.exists_ids_updateRow found
      rw [Tree.unselect, ids, Forest.ids_unselect, whole]

theorem unselect (sound : tree.Sound least) (group : NodeId) : (tree.unselect group).Sound least := by
  cases found : tree.row? group with
  | none => rwa [Tree.unselect, updateRow_of_row?_eq_none tree group found]
  | some row =>
      have same := sound.ids_unselect group
      refine sound.of_sublist (same ▸ List.Sublist.refl _) (sound.atLeast_updateRow found ?_ ?_)
      · intro _ inhabited
        rwa [Forest.width_unselect]
      · exact (sound.atLeast_row? found).unselect

/-- A run that is grouped may be all that its group had, so that two items stay the least number
at the root only. -/
theorem wrap (sound : tree.Sound least) (small : least ≤ 2) {group : NodeId}
    (allowed : group = NodeId.root ∨ least = 1) {start count : Nat}
    (run : tree.run? group = some (start, count)) :
    Sound { tree.updateRow group (·.wrap start count tree.next) with
      next := tree.next + 1 } least := by
  obtain ⟨row, found, many, fits⟩ := run?_bounds run
  refine sound.updateRow_fresh found (row.ids_wrap_perm start count tree.next) ?_ ?_
  · intro inner _
    have one : least = 1 := allowed.resolve_left inner
    rw [row.width_wrap fits]
    omega
  · exact (sound.atLeast_row? found).wrap (by omega) fits tree.next

theorem groupSelected? (sound : tree.Sound least) (small : least ≤ 2) {group : NodeId}
    (allowed : group = NodeId.root ∨ least = 1) {grouped : Tree}
    (done : tree.groupSelected? group = some grouped) : grouped.Sound least := by
  obtain ⟨⟨start, count⟩, run, rfl⟩ := Option.map_eq_some_iff.mp done
  exact (sound.wrap small allowed run).unselect group

theorem ids_groupSelected?_perm (sound : tree.Sound) {group : NodeId} {grouped : Tree}
    (done : tree.groupSelected? group = some grouped) :
    grouped.row.ids.Perm (tree.next :: tree.row.ids) := by
  obtain ⟨⟨start, count⟩, run, rfl⟩ := Option.map_eq_some_iff.mp done
  obtain ⟨row, found, _⟩ := run?_bounds run
  have wrapped := sound.wrap (by decide) (.inr rfl) run
  have more := sound.ids_updateRow_perm found (row.ids_wrap_perm start count tree.next)
  exact (List.Perm.of_eq (wrapped.ids_unselect group)).trans more

theorem apply (sound : tree.Sound least) (positive : 1 ≤ least) (small : least ≤ 2) {edit : Edit}
    (allowed : edit.Outermost ∨ least = 1) : (tree.apply edit).Sound least := by
  cases edit with
  | insertBefore group anchor body => exact sound.insertBefore group anchor body
  | insertAfter anchor body => exact sound.insertAfter anchor body
  | delete id => exact sound.delete small id
  | clear => exact sound.clear
  | group holder =>
      simp only [Tree.apply]
      cases done : tree.groupSelected? holder with
      | none => exact sound
      | some grouped => exact sound.groupSelected? small allowed done
  | ungroup id => exact sound.ungroup positive id
  | unselect group => exact sound.unselect group
  | change id edit => exact sound.updateClause id edit

/-- Edits that group at the root only leave two items in every group that had them. -/
theorem foldl_apply (sound : tree.Sound 2) (edits : List Edit)
    (outermost : ∀ edit ∈ edits, edit.Outermost) : (edits.foldl Tree.apply tree).Sound 2 := by
  refine List.foldlRecOn (motive := (Sound · 2)) edits Tree.apply sound ?_
  intro tree kept edit member
  exact kept.apply (by decide) (Nat.le_refl 2) (.inl (outermost edit member))

end Sound

theorem sound_after (edits : List Edit) : (after edits).Sound := by
  refine List.foldlRecOn (motive := (Sound ·)) edits apply Sound.empty ?_
  intro tree kept edit _
  exact kept.apply (Nat.le_refl 1) (by decide) (.inr rfl)

end WhereEditor.Tree
