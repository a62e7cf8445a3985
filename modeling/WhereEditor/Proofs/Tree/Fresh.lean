import WhereEditor.Proofs.Support
import WhereEditor.Proofs.Tree.Sound

/-!
The ids that edits give out. Main statement: along a run they are numbered one after the other, so
that no id is given out twice.
-/

namespace WhereEditor.Tree

def newcomers (earlier later : Tree) : List NodeId :=
  later.row.ids.filter (· ∉ earlier.row.ids)

def given (tree : Tree) : List Edit → List NodeId
  | [] => []
  | edit :: later => tree.newcomers (tree.apply edit) ++ (tree.apply edit).given later

@[simp] theorem mem_newcomers {earlier later : Tree} {id : NodeId} :
    id ∈ earlier.newcomers later ↔ id ∈ later.row.ids ∧ id ∉ earlier.row.ids := by
  simp [newcomers]

theorem newcomers_eq_nil {earlier later : Tree} (fewer : later.row.ids ⊆ earlier.row.ids) :
    earlier.newcomers later = [] := by
  refine List.filter_eq_nil_iff.mpr fun id member => ?_
  simpa using fewer member

@[simp] theorem newcomers_updateClause (tree later : Tree) (id : NodeId) (edit : Clause → Clause) :
    (tree.updateClause id edit).newcomers later = tree.newcomers later := by
  simp [newcomers, updateClause]

/-! ## The next id -/

theorem next_insertBefore (tree : Tree) (group : NodeId) (anchor : Option NodeId) (body : Clause) :
    (tree.insertBefore group anchor body).next = tree.next + 1 := by
  rw [insertBefore]
  split <;> rfl

theorem next_insertAfter (tree : Tree) (anchor : NodeId) (body : Clause) :
    (tree.insertAfter anchor body).next = tree.next + 1 := by
  rw [insertAfter]
  split <;> rfl

theorem next_groupSelected? {tree grouped : Tree} {group : NodeId}
    (done : tree.groupSelected? group = some grouped) : grouped.next = tree.next + 1 := by
  obtain ⟨⟨start, count⟩, _, rfl⟩ := Option.map_eq_some_iff.mp done
  rfl

namespace Sound

variable {tree later : Tree}

/-- An edit takes ids away and leaves the next one as it is, or it gives out the next one and takes
none away. -/
theorem ids_apply (sound : tree.Sound) (edit : Edit) :
    ((tree.apply edit).row.ids ⊆ tree.row.ids ∧ (tree.apply edit).next = tree.next) ∨
      (tree.apply edit).row.ids.Perm (tree.next :: tree.row.ids) ∧
        (tree.apply edit).next = tree.next + 1 := by
  cases edit with
  | insertBefore group anchor body =>
      exact .inr ⟨sound.ids_insertBefore_perm group anchor body,
        next_insertBefore tree group anchor body⟩
  | insertAfter anchor body =>
      exact .inr ⟨sound.ids_insertAfter_perm anchor body, next_insertAfter tree anchor body⟩
  | delete id => exact .inl ⟨(tree.row.ids_erase_sublist id).subset, rfl⟩
  | clear => exact .inl ⟨List.nil_subset _, rfl⟩
  | group holder =>
      rw [Tree.apply]
      cases done : tree.groupSelected? holder with
      | none => exact .inl ⟨List.Subset.refl _, rfl⟩
      | some grouped =>
          exact .inr ⟨sound.ids_groupSelected?_perm done, next_groupSelected? done⟩
  | ungroup id => exact .inl ⟨(tree.row.ids_ungroup_sublist id).subset, rfl⟩
  | unselect group => exact .inl ⟨(List.Perm.of_eq (sound.ids_unselect group)).subset, rfl⟩
  | change id edit =>
      have same : (tree.row.updateClause id edit).ids = tree.row.ids :=
        tree.row.ids_updateClause id edit
      exact .inl ⟨(List.Perm.of_eq same).subset, rfl⟩

theorem newcomers_eq_singleton {least : Nat} (sound : tree.Sound least)
    (more : later.row.ids.Perm (tree.next :: tree.row.ids)) : tree.newcomers later = [tree.next] := by
  have kept := more.filter (· ∉ tree.row.ids)
  have fresh : (tree.next :: tree.row.ids).filter (· ∉ tree.row.ids) = [tree.next] := by
    rw [List.filter_cons_of_pos (by simpa using sound.next_not_mem),
      List.filter_eq_nil_iff.mpr fun id member => by simpa using member]
  rw [fresh] at kept
  exact List.perm_singleton.mp kept

theorem newcomers_apply (sound : tree.Sound) (edit : Edit) :
    tree.newcomers (tree.apply edit) =
      List.range' tree.next ((tree.apply edit).next - tree.next) := by
  rcases sound.ids_apply edit with ⟨fewer, same⟩ | ⟨more, further⟩
  · rw [newcomers_eq_nil fewer, same, Nat.sub_self]
    rfl
  · rw [sound.newcomers_eq_singleton more, further, Nat.add_sub_cancel_left]
    rfl

theorem next_le_apply (sound : tree.Sound) (edit : Edit) : tree.next ≤ (tree.apply edit).next := by
  rcases sound.ids_apply edit with ⟨_, same⟩ | ⟨_, further⟩
  · exact Nat.le_of_eq same.symm
  · exact further ▸ Nat.le_succ tree.next

theorem next_le_foldl (sound : tree.Sound) (edits : List Edit) :
    tree.next ≤ (edits.foldl Tree.apply tree).next := by
  induction edits generalizing tree with
  | nil => exact Nat.le_refl _
  | cons edit later ih =>
      exact Nat.le_trans (sound.next_le_apply edit)
        (ih (sound.apply (Nat.le_refl 1) (by decide) (.inr rfl)))

theorem given_eq (sound : tree.Sound) (edits : List Edit) :
    tree.given edits = List.range' tree.next ((edits.foldl Tree.apply tree).next - tree.next) := by
  induction edits generalizing tree with
  | nil => simp [given]
  | cons edit later ih =>
      have kept := sound.apply (Nat.le_refl 1) (by decide) (.inr rfl : edit.Outermost ∨ 1 = 1)
      rw [given, ih kept, sound.newcomers_apply edit, List.foldl_cons]
      exact range'_append_range' (sound.next_le_apply edit) (kept.next_le_foldl later)

end Sound

end WhereEditor.Tree
