import WhereEditor.Proofs.Tree.Ids

/-!
What the search for a marked run finds: at least two items, which all lie in the row.
-/

namespace WhereEditor

theorem Selection.run?_bounds {items : List Selection} {start count : Nat}
    (found : run? items = some (start, count)) : 2 ≤ count ∧ start + count ≤ items.length := by
  simp only [run?] at found
  split at found
  · rename_i allowed
    simp only [Option.some.injEq, Prod.mk.injEq] at found
    obtain ⟨rfl, rfl⟩ := found
    refine ⟨allowed.2.2, ?_⟩
    have before : (items.takeWhile (· != all)).length ≤ items.length :=
      (List.takeWhile_sublist _).length_le
    have marked : ((items.drop (items.takeWhile (· != all)).length).takeWhile (· == all)).length ≤
        (items.drop (items.takeWhile (· != all)).length).length :=
      (List.takeWhile_sublist _).length_le
    rw [List.length_drop] at marked
    omega
  · exact absurd found (by simp)

@[simp] theorem Forest.length_selections (row : Forest) : row.selections.length = row.width := by
  induction row with
  | nil => rfl
  | clause id body rest ih => simp [selections, ih]
  | group id members rest _ ih => simp [selections, ih]

theorem Tree.run?_bounds {tree : Tree} {group : NodeId} {start count : Nat}
    (found : tree.run? group = some (start, count)) :
    ∃ row, tree.row? group = some row ∧ 2 ≤ count ∧ start + count ≤ row.width := by
  obtain ⟨row, present, run⟩ := Option.bind_eq_some_iff.mp found
  have bounds := Selection.run?_bounds run
  rw [Forest.length_selections] at bounds
  exact ⟨row, present, bounds⟩

end WhereEditor
