import WhereEditor.Proofs.Draft.Action
import WhereEditor.Proofs.Tree.Prune

/-!
Taking clauses out of a draft one by one. Main statement: whatever the order, what is left is the
tree pruned by all of them at once.
-/

namespace WhereEditor.Draft

def prune (draft : Draft) (gone : Finset NodeId) : Draft :=
  { draft with tree := draft.tree.prune gone }

theorem delete_eq_prune {draft : Draft} (sound : draft.tree.Sound 2) (id : NodeId) :
    draft.delete id = draft.prune {id} := by
  have same : (draft.delete id).tree.row = draft.tree.row.prune {id} := by
    rw [delete]
    cases found : draft.tree.clause? id with
    | none =>
        have apart : ∀ entry ∈ draft.tree.row.clauses, entry.1 ∉ ({id} : Finset NodeId) := by
          intro entry member taken
          exact Forest.ne_of_clause?_eq_none found member (Finset.mem_singleton.mp taken)
        exact (Forest.prune_eq_self sound.occupied apart).symm
    | some body =>
        have noGroup := Forest.members?_eq_none_of_mem_clauses sound.distinct
          (Forest.mem_clauses_of_clause? found)
        exact Forest.erase_eq_prune sound.occupied sound.distinct noGroup
  have settled : draft.delete id = { draft with tree.row := (draft.delete id).tree.row } := by
    rw [delete]
    split
    · rfl
    · rfl
  rw [settled, same]
  rfl

theorem foldl_delete_eq_prune {draft : Draft} (sound : draft.tree.Sound 2) (order : List NodeId) :
    order.foldl delete draft = draft.prune order.toFinset := by
  induction order generalizing draft with
  | nil =>
      have apart : ∀ entry ∈ draft.tree.row.clauses, entry.1 ∉ (∅ : Finset NodeId) := by simp
      rw [List.foldl_nil, List.toFinset_nil, prune, Tree.prune,
        Forest.prune_eq_self sound.occupied apart]
  | cons id later ih =>
      have pruned : (draft.prune {id}).tree.Sound 2 := sound.prune {id}
      have both : (draft.tree.prune {id}).prune later.toFinset =
          draft.tree.prune (id :: later).toFinset := by
        rw [Tree.prune_prune, List.toFinset_cons, Finset.insert_eq]
      rw [List.foldl_cons, delete_eq_prune sound, ih pruned, prune, prune, both]
      rfl

/-- Clauses that are taken out one after the other leave what pruning by the set of them leaves. The
other clauses stay as they were, and a group stays, with what is left of its row, if two of its items
or more still have a clause. -/
theorem foldl_delete_after (settings : Settings) (steps : List Step) (order : List NodeId) :
    let draft := after settings steps
    let gone := order.toFinset
    order.foldl delete draft = draft.prune gone ∧
      (draft.prune gone).tree.clauses = draft.tree.clauses.filter (·.1 ∉ gone) ∧
      ∀ id, (draft.prune gone).tree.row? id = (draft.tree.row? id).bind fun row =>
        if id = NodeId.root ∨ 2 ≤ row.remaining gone then some (row.prune gone) else none := by
  intro draft gone
  have sound : draft.tree.Sound 2 := sound_after settings steps
  exact ⟨foldl_delete_eq_prune sound order, Forest.clauses_prune gone draft.tree.row,
    sound.row?_prune gone⟩

end WhereEditor.Draft
