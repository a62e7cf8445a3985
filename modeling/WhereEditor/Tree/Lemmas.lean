import WhereEditor.Tree.Forest

/-!
What the operations on a forest do to its views: to the ids of the row, to all ids, and to the
clauses from left to right. Main statements: ungrouping and wrapping leave the clauses as they are.
-/

namespace WhereEditor.Forest

/-! ## Joining rows -/

@[simp] theorem nil_append (tail : Forest) : nil ++ tail = tail := rfl

@[simp] theorem clause_append (id : NodeId) (body : Clause) (rest tail : Forest) :
    clause id body rest ++ tail = clause id body (rest ++ tail) := rfl

@[simp] theorem group_append (id : NodeId) (members rest tail : Forest) :
    group id members rest ++ tail = group id members (rest ++ tail) := rfl

@[simp] theorem append_nil (row : Forest) : row ++ nil = row := by
  induction row with
  | nil => rfl
  | clause id body rest ih => simp [ih]
  | group id members rest _ ih => simp [ih]

theorem append_assoc (first second third : Forest) :
    first ++ second ++ third = first ++ (second ++ third) := by
  induction first with
  | nil => rfl
  | clause id body rest ih => simp [ih]
  | group id members rest _ ih => simp [ih]

@[simp] theorem heads_append (row tail : Forest) :
    (row ++ tail).heads = row.heads ++ tail.heads := by
  induction row with
  | nil => rfl
  | clause id body rest ih => simp [heads, ih]
  | group id members rest _ ih => simp [heads, ih]

@[simp] theorem width_append (row tail : Forest) :
    (row ++ tail).width = row.width + tail.width := by
  simp [width]

@[simp] theorem ids_append (row tail : Forest) : (row ++ tail).ids = row.ids ++ tail.ids := by
  induction row with
  | nil => rfl
  | clause id body rest ih => simp [ids, ih]
  | group id members rest _ ih => simp [ids, ih]

@[simp] theorem height_append (row tail : Forest) :
    (row ++ tail).height = max row.height tail.height := by
  induction row with
  | nil => simp [height]
  | clause id body rest ih => simp [height, ih]
  | group id members rest _ ih => simp [height, ih, Nat.max_assoc]

theorem height_le_length_ids (row : Forest) : row.height ≤ row.ids.length := by
  induction row with
  | nil => exact Nat.le_refl _
  | clause id body rest ih =>
      simp only [height, ids, List.length_cons]
      omega
  | group id members rest inner ih =>
      simp only [height, ids, List.length_cons, List.length_append]
      omega

@[simp] theorem clauses_append (row tail : Forest) :
    (row ++ tail).clauses = row.clauses ++ tail.clauses := by
  induction row with
  | nil => rfl
  | clause id body rest ih => simp [clauses, ih]
  | group id members rest _ ih => simp [clauses, ih]

theorem heads_sublist_ids (row : Forest) : row.heads.Sublist row.ids := by
  induction row with
  | nil => exact List.Sublist.refl _
  | clause id body rest ih => exact ih.cons_cons id
  | group id members rest _ ih => exact (ih.trans (List.sublist_append_right _ _)).cons_cons id

/-! ## Cutting rows -/

@[simp] theorem drop_zero (row : Forest) : row.drop 0 = row := by cases row <;> rfl

@[simp] theorem take_append_drop (row : Forest) (count : Nat) :
    row.take count ++ row.drop count = row := by
  induction row generalizing count with
  | nil => cases count <;> rfl
  | clause id body rest ih => cases count <;> simp [take, drop, ih]
  | group id members rest _ ih => cases count <;> simp [take, drop, ih]

theorem drop_drop (row : Forest) (first second : Nat) :
    (row.drop first).drop second = row.drop (first + second) := by
  induction row generalizing first with
  | nil => cases first <;> cases second <;> rfl
  | clause id body rest ih =>
      cases first with
      | zero => simp
      | succ first => rw [Nat.succ_add]; exact ih first
  | group id members rest _ ih =>
      cases first with
      | zero => simp
      | succ first => rw [Nat.succ_add]; exact ih first

theorem heads_take (row : Forest) (count : Nat) : (row.take count).heads = row.heads.take count := by
  induction row generalizing count with
  | nil => cases count <;> rfl
  | clause id body rest ih => cases count <;> simp [take, heads, ih]
  | group id members rest _ ih => cases count <;> simp [take, heads, ih]

theorem heads_drop (row : Forest) (count : Nat) : (row.drop count).heads = row.heads.drop count := by
  induction row generalizing count with
  | nil => cases count <;> rfl
  | clause id body rest ih => cases count <;> simp [drop, heads, ih]
  | group id members rest _ ih => cases count <;> simp [drop, heads, ih]

theorem height_wrap_le (row : Forest) (start count : Nat) (fresh : NodeId) :
    (row.wrap start count fresh).height ≤ row.height + 1 := by
  have cut := congrArg height (take_append_drop row start)
  have run := congrArg height (take_append_drop (row.drop start) count)
  rw [height_append] at cut run
  rw [drop_drop] at run
  simp only [wrap, height_append, height]
  omega

/-! ## Edits that keep the ids -/

@[simp] theorem ids_updateClause (row : Forest) (target : NodeId) (edit : Clause → Clause) :
    (row.updateClause target edit).ids = row.ids := by
  induction row with
  | nil => rfl
  | clause id body rest ih => simp [updateClause, ids, ih]
  | group id members rest inner ih => simp [updateClause, ids, inner, ih]

@[simp] theorem heads_updateClause (row : Forest) (target : NodeId) (edit : Clause → Clause) :
    (row.updateClause target edit).heads = row.heads := by
  induction row with
  | nil => rfl
  | clause id body rest ih => simp [updateClause, heads, ih]
  | group id members rest _ ih => simp [updateClause, heads, ih]

@[simp] theorem ids_unselect (row : Forest) : row.unselect.ids = row.ids := by
  induction row with
  | nil => rfl
  | clause id body rest ih => simp [unselect, ids, ih]
  | group id members rest inner ih => simp [unselect, ids, inner, ih]

@[simp] theorem heads_unselect (row : Forest) : row.unselect.heads = row.heads := by
  induction row with
  | nil => rfl
  | clause id body rest ih => simp [unselect, heads, ih]
  | group id members rest _ ih => simp [unselect, heads, ih]

theorem clauses_unselect (row : Forest) :
    row.unselect.clauses =
      row.clauses.map fun entry => (entry.1, { entry.2 with selected := false }) := by
  induction row with
  | nil => rfl
  | clause id body rest ih => simp [unselect, clauses, ih]
  | group id members rest inner ih => simp [unselect, clauses, inner, ih]

/-! ## Edits that keep the clauses -/

theorem clauses_ungroup (row : Forest) (target : NodeId) :
    (row.ungroup target).clauses = row.clauses := by
  induction row with
  | nil => rfl
  | clause id body rest ih => simp [ungroup, clauses, ih]
  | group id members rest inner ih =>
      simp only [ungroup]
      split
      · simp [clauses]
      · simp [clauses, inner, ih]

theorem clauses_wrap (row : Forest) (start count : Nat) (fresh : NodeId) :
    (row.wrap start count fresh).clauses = row.clauses := by
  have cut := congrArg clauses (take_append_drop row start)
  have run := congrArg clauses (take_append_drop (row.drop start) count)
  rw [clauses_append] at cut run
  rw [drop_drop] at run
  rw [wrap, clauses_append, ← cut, ← run]
  rfl

end WhereEditor.Forest
