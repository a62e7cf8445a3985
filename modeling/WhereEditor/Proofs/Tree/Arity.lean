import WhereEditor.Tree.Lemmas
import WhereEditor.Tree.Basic

/-!
How many items the groups of a forest have. Every edit keeps a lower bound of one item, and every
edit but grouping keeps one of two; grouping wraps two items or more, but may take them out of a
group that has no others.
-/

namespace WhereEditor

namespace Forest

def AtLeast (least : Nat) : Forest → Prop
  | nil => True
  | clause _ _ rest => rest.AtLeast least
  | group _ members rest => least ≤ members.width ∧ members.AtLeast least ∧ rest.AtLeast least

/-! ## The number of items in a row -/

@[simp] theorem width_nil : nil.width = 0 := rfl

@[simp] theorem width_clause (id : NodeId) (body : Clause) (rest : Forest) :
    (clause id body rest).width = rest.width + 1 := rfl

@[simp] theorem width_group (id : NodeId) (members rest : Forest) :
    (group id members rest).width = rest.width + 1 := rfl

theorem width_take (row : Forest) (count : Nat) : (row.take count).width = min count row.width := by
  simp [width, heads_take]

theorem width_drop (row : Forest) (count : Nat) : (row.drop count).width = row.width - count := by
  simp [width, heads_drop]

@[simp] theorem width_updateClause (row : Forest) (target : NodeId) (edit : Clause → Clause) :
    (row.updateClause target edit).width = row.width := by
  simp [width]

@[simp] theorem width_unselect (row : Forest) : row.unselect.width = row.width := by
  simp [width]

@[simp] theorem width_updateMembers (row : Forest) (target : NodeId) (edit : Forest → Forest) :
    (row.updateMembers target edit).width = row.width := by
  induction row with
  | nil => rfl
  | clause id body rest ih => simp [updateMembers, ih]
  | group id members rest _ ih => simp [updateMembers, ih]

theorem width_le_insertBefore (row : Forest) (anchor fresh : NodeId) (body : Clause) :
    row.width ≤ (row.insertBefore anchor fresh body).width := by
  induction row with
  | nil => exact Nat.le_refl _
  | clause id here rest ih =>
      simp only [insertBefore]
      split
      · simp only [width_clause]
        omega
      · simp only [width_clause]
        omega
  | group id members rest _ ih =>
      simp only [insertBefore]
      split
      · simp only [width_clause, width_group]
        omega
      · simp only [width_group]
        omega

theorem width_le_insertAfter (row : Forest) (anchor fresh : NodeId) (body : Clause) :
    row.width ≤ (row.insertAfter anchor fresh body).width := by
  induction row with
  | nil => exact Nat.le_refl _
  | clause id here rest ih =>
      simp only [insertAfter]
      split
      · simp only [width_clause]
        omega
      · simp only [width_clause]
        omega
  | group id members rest _ ih =>
      simp only [insertAfter]
      split
      · simp only [width_clause, width_group]
        omega
      · simp only [width_group]
        omega

/-- A row does not get shorter when the items of a group take its place, unless it was empty. -/
theorem width_le_ungroup (row : Forest) (target : NodeId) (occupied : row.AtLeast 1) :
    row.width ≤ (row.ungroup target).width := by
  induction row with
  | nil => exact Nat.le_refl _
  | clause id body rest ih =>
      have later := ih occupied
      simp only [ungroup, width_clause]
      omega
  | group id members rest _ ih =>
      obtain ⟨some, _, restOccupied⟩ := occupied
      have later := ih restOccupied
      simp only [ungroup]
      split
      · simp only [width_append, width_group]
        omega
      · simp only [width_group]
        omega

/-! ## Which edits keep a lower bound -/

variable {least : Nat}

theorem AtLeast.mono {fewer : Nat} (le : fewer ≤ least) {row : Forest} (bound : row.AtLeast least) :
    row.AtLeast fewer := by
  induction row with
  | nil => trivial
  | clause id body rest ih => exact ih bound
  | group id members rest inner ih =>
      exact ⟨Nat.le_trans le bound.1, inner bound.2.1, ih bound.2.2⟩

@[simp] theorem atLeast_append (row tail : Forest) :
    (row ++ tail).AtLeast least ↔ row.AtLeast least ∧ tail.AtLeast least := by
  induction row with
  | nil => simp [AtLeast]
  | clause id body rest ih => simp [AtLeast, ih]
  | group id members rest _ ih => simp [AtLeast, ih, and_assoc]

theorem AtLeast.take_drop {row : Forest} (bound : row.AtLeast least) (count : Nat) :
    (row.take count).AtLeast least ∧ (row.drop count).AtLeast least := by
  rw [← atLeast_append, take_append_drop]
  exact bound

theorem AtLeast.updateClause {row : Forest} (bound : row.AtLeast least) (target : NodeId)
    (edit : Clause → Clause) : (row.updateClause target edit).AtLeast least := by
  induction row with
  | nil => trivial
  | clause id body rest ih => exact ih bound
  | group id members rest inner ih =>
      exact ⟨by simpa using bound.1, inner bound.2.1, ih bound.2.2⟩

theorem AtLeast.unselect {row : Forest} (bound : row.AtLeast least) :
    row.unselect.AtLeast least := by
  induction row with
  | nil => trivial
  | clause id body rest ih => exact ih bound
  | group id members rest inner ih =>
      exact ⟨by simpa using bound.1, inner bound.2.1, ih bound.2.2⟩

theorem AtLeast.insertBefore {row : Forest} (bound : row.AtLeast least) (anchor fresh : NodeId)
    (body : Clause) : (row.insertBefore anchor fresh body).AtLeast least := by
  induction row with
  | nil => trivial
  | clause id here rest ih =>
      simp only [Forest.insertBefore]
      split
      · exact bound
      · exact ih bound
  | group id members rest inner ih =>
      obtain ⟨enough, membersBound, restBound⟩ := bound
      simp only [Forest.insertBefore]
      split
      · exact ⟨enough, membersBound, restBound⟩
      · have wider := width_le_insertBefore members anchor fresh body
        exact ⟨by omega, inner membersBound, ih restBound⟩

theorem AtLeast.insertAfter {row : Forest} (bound : row.AtLeast least) (anchor fresh : NodeId)
    (body : Clause) : (row.insertAfter anchor fresh body).AtLeast least := by
  induction row with
  | nil => trivial
  | clause id here rest ih =>
      simp only [Forest.insertAfter]
      split
      · exact bound
      · exact ih bound
  | group id members rest inner ih =>
      obtain ⟨enough, membersBound, restBound⟩ := bound
      simp only [Forest.insertAfter]
      split
      · exact ⟨enough, membersBound, restBound⟩
      · have wider := width_le_insertAfter members anchor fresh body
        exact ⟨by omega, inner membersBound, ih restBound⟩

theorem settle_eq (id : NodeId) (members rest : Forest) :
    settle id members rest = if members.width < 2 then members ++ rest else group id members rest := by
  rcases members with _ | ⟨survivor, body, others⟩ | ⟨survivor, inner, others⟩
  · rfl
  · cases others with
    | nil => rfl
    | clause => exact (if_neg (by simp only [width_clause]; omega)).symm
    | group => exact (if_neg (by simp only [width_clause, width_group]; omega)).symm
  · cases others with
    | nil => rfl
    | clause => exact (if_neg (by simp only [width_clause, width_group]; omega)).symm
    | group => exact (if_neg (by simp only [width_group]; omega)).symm

theorem AtLeast.erase {row : Forest} (bound : row.AtLeast least) (small : least ≤ 2)
    (target : NodeId) : (row.erase target).AtLeast least := by
  induction row with
  | nil => trivial
  | clause id body rest ih =>
      simp only [Forest.erase]
      split
      · exact bound
      · exact ih bound
  | group id members rest inner ih =>
      obtain ⟨enough, membersBound, restBound⟩ := bound
      have leftBound := inner membersBound
      have laterBound := ih restBound
      simp only [Forest.erase, settle_eq]
      split
      · exact restBound
      · split
        · split
          · exact (atLeast_append _ _).mpr ⟨leftBound, laterBound⟩
          · exact ⟨by omega, leftBound, laterBound⟩
        · exact ⟨by omega, leftBound, laterBound⟩

theorem AtLeast.ungroup {row : Forest} (bound : row.AtLeast least) (positive : 1 ≤ least)
    (target : NodeId) : (row.ungroup target).AtLeast least := by
  induction row with
  | nil => trivial
  | clause id body rest ih => exact ih bound
  | group id members rest inner ih =>
      obtain ⟨enough, membersBound, restBound⟩ := bound
      simp only [Forest.ungroup]
      split
      · exact (atLeast_append _ _).mpr ⟨membersBound, restBound⟩
      · have wider := width_le_ungroup members target (membersBound.mono positive)
        exact ⟨by omega, inner membersBound, ih restBound⟩

theorem AtLeast.wrap {row : Forest} (bound : row.AtLeast least) {start count : Nat}
    (enough : least ≤ count) (fits : start + count ≤ row.width) (fresh : NodeId) :
    (row.wrap start count fresh).AtLeast least := by
  have run := (bound.take_drop start).2.take_drop count
  have wide : ((row.drop start).take count).width = count := by
    rw [width_take, width_drop]
    omega
  exact (atLeast_append _ _).mpr
    ⟨(bound.take_drop start).1, by omega, run.1, (bound.take_drop (start + count)).2⟩

theorem width_wrap (row : Forest) {start count : Nat} (fits : start + count ≤ row.width)
    (fresh : NodeId) : (row.wrap start count fresh).width = row.width - count + 1 := by
  simp only [Forest.wrap, width_append, width_group, width_take, width_drop]
  omega

end Forest

end WhereEditor
