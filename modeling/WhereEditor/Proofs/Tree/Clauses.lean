import WhereEditor.Proofs.Tree.Frame

/-!
The clauses of a tree from left to right, edit by edit. No edit brings in a clause other than the one
that it is given, or that it makes of one that was there.
-/

namespace WhereEditor

namespace Forest

variable {row : Forest} {entry : NodeId × Clause}

/-! ## The clause of an id -/

theorem clause?_group (target id : NodeId) (members rest : Forest) :
    (group id members rest).clause? target =
      (members.clause? target).or (rest.clause? target) := by
  simp [clause?]

theorem mem_clauses_of_clause? {target : NodeId} {body : Clause}
    (found : row.clause? target = some body) : (target, body) ∈ row.clauses := by
  induction row with
  | nil => exact absurd found (by simp [clause?])
  | clause id here rest ih =>
      rw [clause?] at found
      split at found
      · rename_i same
        cases found
        exact same ▸ List.mem_cons_self
      · exact List.mem_cons_of_mem _ (ih found)
  | group id members rest inner ih =>
      rw [clause?_group] at found
      rcases Option.or_eq_some_iff.mp found with below | ⟨_, later⟩
      · exact List.mem_append_left _ (inner below)
      · exact List.mem_append_right _ (ih later)

theorem ne_of_clause?_eq_none {target : NodeId} (missing : row.clause? target = none)
    (member : entry ∈ row.clauses) : entry.1 ≠ target := by
  induction row with
  | nil => exact absurd member List.not_mem_nil
  | clause id here rest ih =>
      rw [clause?] at missing
      split at missing
      · exact absurd missing (by simp)
      · rename_i other
        rcases List.mem_cons.mp member with rfl | later
        · exact other
        · exact ih missing later
  | group id members rest inner ih =>
      rw [clause?_group] at missing
      obtain ⟨notBelow, notLater⟩ := Option.or_eq_none_iff.mp missing
      rcases List.mem_append.mp member with below | later
      · exact inner notBelow below
      · exact ih notLater later

theorem members?_eq_none_of_mem_clauses (distinct : row.ids.Nodup) (member : entry ∈ row.clauses) :
    row.members? entry.1 = none := by
  induction row with
  | nil => exact absurd member List.not_mem_nil
  | clause id body rest ih =>
      obtain ⟨outside, restDistinct⟩ := List.nodup_cons.mp distinct
      rcases List.mem_cons.mp member with rfl | later
      · rw [members?, members?_eq_none outside]
      · exact ih restDistinct later
  | group id members rest inner ih =>
      obtain ⟨inside, outside, membersDistinct, restDistinct, apart⟩ := nodup_ids_group distinct
      rw [members?_group]
      rcases List.mem_append.mp member with below | later
      · have here := mem_ids_of_mem_clauses below
        have other : id ≠ entry.1 := fun same => inside (same ▸ here)
        rw [if_neg other, inner membersDistinct below, members?_eq_none (apart entry.1 here)]
        rfl
      · have there := mem_ids_of_mem_clauses later
        have other : id ≠ entry.1 := fun same => outside (same ▸ there)
        have absent : entry.1 ∉ members.ids := fun here => apart entry.1 here there
        rw [if_neg other, ih restDistinct later, members?_eq_none absent]
        rfl

/-! ## Edits -/

theorem clauses_updateClause (row : Forest) (target : NodeId) (edit : Clause → Clause) :
    (row.updateClause target edit).clauses = row.clauses.map fun entry =>
      (entry.1, if entry.1 = target then edit entry.2 else entry.2) := by
  induction row with
  | nil => rfl
  | clause id body rest ih => simp [updateClause, clauses, ih]
  | group id members rest inner ih => simp [updateClause, clauses, inner, ih]

theorem mem_clauses_insertBefore {anchor fresh : NodeId} {body : Clause}
    (member : entry ∈ (row.insertBefore anchor fresh body).clauses) :
    entry = (fresh, body) ∨ entry ∈ row.clauses := by
  induction row with
  | nil => exact absurd member List.not_mem_nil
  | clause id here rest ih =>
      simp only [insertBefore] at member
      split at member
      · exact List.mem_cons.mp member
      · rcases List.mem_cons.mp member with same | later
        · exact .inr (List.mem_cons.mpr (.inl same))
        · exact (ih later).imp_right (List.mem_cons_of_mem _)
  | group id members rest inner ih =>
      simp only [insertBefore] at member
      split at member
      · exact List.mem_cons.mp member
      · rcases List.mem_append.mp member with below | later
        · exact (inner below).imp_right (List.mem_append_left _)
        · exact (ih later).imp_right (List.mem_append_right _)

theorem mem_clauses_insertAfter {anchor fresh : NodeId} {body : Clause}
    (member : entry ∈ (row.insertAfter anchor fresh body).clauses) :
    entry = (fresh, body) ∨ entry ∈ row.clauses := by
  induction row with
  | nil => exact absurd member List.not_mem_nil
  | clause id here rest ih =>
      simp only [insertAfter] at member
      split at member
      · rcases List.mem_cons.mp member with same | later
        · exact .inr (List.mem_cons.mpr (.inl same))
        · exact (List.mem_cons.mp later).imp_right (List.mem_cons_of_mem _)
      · rcases List.mem_cons.mp member with same | later
        · exact .inr (List.mem_cons.mpr (.inl same))
        · exact (ih later).imp_right (List.mem_cons_of_mem _)
  | group id members rest inner ih =>
      simp only [insertAfter] at member
      split at member
      · rcases List.mem_append.mp member with below | later
        · exact .inr (List.mem_append_left _ below)
        · exact (List.mem_cons.mp later).imp_right (List.mem_append_right _)
      · rcases List.mem_append.mp member with below | later
        · exact (inner below).imp_right (List.mem_append_left _)
        · exact (ih later).imp_right (List.mem_append_right _)

theorem mem_clauses_updateMembers {target : NodeId} {edit : Forest → Forest} {added : Prop}
    (edited : ∀ row : Forest, entry ∈ (edit row).clauses → added ∨ entry ∈ row.clauses)
    (member : entry ∈ (row.updateMembers target edit).clauses) : added ∨ entry ∈ row.clauses := by
  induction row with
  | nil => exact absurd member List.not_mem_nil
  | clause id body rest ih =>
      rcases List.mem_cons.mp member with same | later
      · exact .inr (List.mem_cons.mpr (.inl same))
      · exact (ih later).imp_right (List.mem_cons_of_mem _)
  | group id members rest inner ih =>
      rcases List.mem_append.mp member with below | later
      · have here : added ∨ entry ∈ members.clauses := by
          split at below
          · exact edited members below
          · exact inner below
        exact here.imp_right (List.mem_append_left _)
      · exact (ih later).imp_right (List.mem_append_right _)

theorem clauses_erase_sublist (row : Forest) (target : NodeId) :
    (row.erase target).clauses.Sublist row.clauses := by
  induction row with
  | nil => exact List.Sublist.refl _
  | clause id body rest ih =>
      simp only [erase]
      split
      · exact List.sublist_cons_self _ _
      · exact ih.cons_cons _
  | group id members rest inner ih =>
      simp only [erase, settle_eq]
      split
      · exact List.sublist_append_right _ _
      · split
        · split
          · rw [clauses_append]
            exact inner.append ih
          · exact inner.append ih
        · exact inner.append ih

end Forest

namespace Tree

variable {tree : Tree} {entry : NodeId × Clause}

theorem mem_clauses_updateClause {id : NodeId} {edit : Clause → Clause}
    (member : entry ∈ (tree.updateClause id edit).clauses) :
    entry ∈ tree.clauses ∨ ∃ old, (id, old) ∈ tree.clauses ∧ entry = (id, edit old) := by
  rw [clauses, updateClause, Forest.clauses_updateClause] at member
  obtain ⟨⟨node, old⟩, held, rfl⟩ := List.mem_map.mp member
  by_cases same : node = id
  · subst same
    exact .inr ⟨old, held, by simp⟩
  · simp only [same, if_false]
    exact .inl held

theorem mem_clauses_append {group : NodeId} {body : Clause}
    (member : entry ∈ (tree.append group body).clauses) :
    entry = (tree.next, body) ∨ entry ∈ tree.clauses := by
  have edited : ∀ row : Forest, entry ∈ (row ++ .clause tree.next body .nil).clauses →
      entry = (tree.next, body) ∨ entry ∈ row.clauses := by
    intro row inside
    rw [Forest.clauses_append] at inside
    exact (List.mem_append.mp inside).symm.imp_left List.mem_singleton.mp
  simp only [append, clauses, updateRow] at member
  generalize (if tree.isGroup group then group else NodeId.root) = holder at member
  split at member
  · exact edited tree.row member
  · exact Forest.mem_clauses_updateMembers edited member

theorem mem_clauses_insertBefore {group : NodeId} {anchor : Option NodeId} {body : Clause}
    (member : entry ∈ (tree.insertBefore group anchor body).clauses) :
    entry = (tree.next, body) ∨ entry ∈ tree.clauses := by
  rw [insertBefore] at member
  split at member
  · exact Forest.mem_clauses_insertBefore member
  · exact mem_clauses_append member

theorem mem_clauses_insertAfter {anchor : NodeId} {body : Clause}
    (member : entry ∈ (tree.insertAfter anchor body).clauses) :
    entry = (tree.next, body) ∨ entry ∈ tree.clauses := by
  rw [insertAfter] at member
  split at member
  · exact Forest.mem_clauses_insertAfter member
  · exact mem_clauses_append member

theorem clauses_ungroup (tree : Tree) (id : NodeId) : (tree.ungroup id).clauses = tree.clauses :=
  tree.row.clauses_ungroup id

theorem clauses_groupSelected? {grouped : Tree}
    (done : tree.groupSelected? NodeId.root = some grouped) :
    grouped.clauses = tree.clauses.map fun entry =>
      (entry.1, { entry.2 with selected := false }) := by
  obtain ⟨⟨start, count⟩, _, rfl⟩ := Option.map_eq_some_iff.mp done
  simp only [clauses, unselect, updateRow, if_true, Forest.clauses_unselect, Forest.clauses_wrap]

end Tree

end WhereEditor
