import WhereEditor.Proofs.Tree.Grouping
import WhereEditor.Proofs.Tree.Identity

/-!
Grouping taken back. Main statement: ungrouping the group that grouping has made leaves the tree as
it was before, but for the marks below the old group, and so it does in the slots.
-/

namespace WhereEditor

namespace Forest

/-- The items of a run that is wrapped are those of the row again once the wrapping is gone. -/
theorem ungroup_unselect_wrap {row : Forest} {layers : List Layer} (start count : Nat)
    {fresh : NodeId} (distinct : ((row.wrap start count fresh).unselect.within layers).ids.Nodup) :
    ((row.wrap start count fresh).unselect.within layers).ungroup fresh =
      row.unselect.within layers := by
  have cut : (row.wrap start count fresh).unselect = (row.take start).unselect ++
      (group fresh ((row.drop start).take count).unselect nil ++
        (row.drop (start + count)).unselect) := by
    rw [wrap, unselect_append]
    rfl
  have opened : (group fresh ((row.drop start).take count).unselect nil).ungroup fresh =
      ((row.drop start).take count).unselect := by
    rw [ungroup, if_pos rfl, append_nil]
  have joined : (row.take start).unselect ++ (((row.drop start).take count).unselect ++
      (row.drop (start + count)).unselect) = row.unselect := by
    rw [← unselect_append, ← unselect_append, ← drop_drop, take_append_drop, take_append_drop]
  rw [cut] at distinct ⊢
  rw [(actsAt_ungroup fresh).cut distinct (.group _), opened, joined]

end Forest

namespace Tree

variable {tree grouped : Tree} {group : NodeId}

namespace Sound

theorem ungroup_groupSelected? (sound : tree.Sound)
    (done : tree.groupSelected? group = some grouped) :
    grouped.ungroup tree.next = { tree.unselect group with next := tree.next + 1 } := by
  obtain ⟨⟨start, count⟩, run, _⟩ := Option.map_eq_some_iff.mp done
  obtain ⟨row, found, _⟩ := run?_bounds run
  have kept : grouped.Sound := sound.groupSelected? (by decide) (.inr rfl) done
  obtain ⟨layers, _, whole, edited⟩ := sound.exists_layers found
  have made := eq_of_groupSelected? run done
  have after : grouped.row = (row.wrap start count tree.next).unselect.within layers := by
    rw [made]
    exact edited _
  have distinct := after ▸ kept.distinct
  have back : (tree.unselect group).row = row.unselect.within layers := edited Forest.unselect
  rw [Tree.ungroup, after, Forest.ungroup_unselect_wrap start count distinct, ← back, made]

theorem isGroup_unselect (sound : tree.Sound) (group id : NodeId) :
    (tree.unselect group).isGroup id = tree.isGroup id ∧
      (tree.unselect group).children id = tree.children id := by
  cases found : tree.row? group with
  | none => rw [Tree.unselect, updateRow_of_row?_eq_none tree group found]; exact ⟨rfl, rfl⟩
  | some row =>
      obtain ⟨layers, _, whole, edited⟩ := sound.exists_layers found
      exact isGroup_eq_of_map whole (edited Forest.unselect) Forest.heads_unselect
        Forest.members?_unselect id

theorem parent?_unselect (sound : tree.Sound) (group : NodeId) :
    (tree.unselect group).parent? = tree.parent? :=
  sound.parent?_eq_of_children (sound.unselect group) fun id => (sound.isGroup_unselect group id).2

end Sound

/-- In every tree that edits lead to, grouping the marked items of a group and ungrouping the group
that is new brings back every node, its parent and its items, and all clauses but for the marks below
the old group. The slots show what the tree does, before and after. -/
theorem ungroup_group_after (edits : List Edit) {group fresh : NodeId}
    (allowed : (after edits).canGroup group = true)
    (absent : (after edits).contains fresh = false)
    (made : ((after edits).apply (.group group)).contains fresh = true) :
    let tree := after edits
    let back := (tree.apply (.group group)).apply (.ungroup fresh)
    let slots := Arena.after edits
    slots.view = tree.view ∧
      ((slots.apply (.group group)).apply (.ungroup fresh)).view = back.view ∧
      back.contains = tree.contains ∧ back.isGroup = tree.isGroup ∧
      back.children = tree.children ∧ back.parent? = tree.parent? ∧
      back.clauses = tree.clauses.map fun entry =>
        if entry ∈ tree.clausesBelow group then (entry.1, { entry.2 with selected := false })
        else entry := by
  intro tree back slots
  have sound : tree.Sound := sound_after edits
  have done := groupSelected?_eq_apply allowed
  have facts := sound.grouped_of_groupSelected? done
  have named : fresh = tree.next := by
    refine ((facts.contains fresh).mp made).resolve_left fun old => ?_
    exact absurd (absent.symm.trans old) Bool.false_ne_true
  have same : back = { tree.unselect group with next := tree.next + 1 } := by
    rw [← sound.ungroup_groupSelected? done, ← named]
    rfl
  have represents : slots.Represents tree := represents_after edits
  have follows := represents.foldl_apply sound [.group group, .ungroup fresh]
  have reached : back = after (edits ++ [Edit.group group, .ungroup fresh]) :=
    foldl_after edits [.group group, .ungroup fresh]
  have kept : back.Sound := reached ▸ sound_after _
  refine ⟨represents.view_eq sound, follows.view_eq kept, ?_, ?_, ?_, ?_,
    (clauses_ungroup _ fresh).trans facts.clauses⟩
  · funext id
    have ids : back.row.ids = tree.row.ids := by
      rw [same]
      exact sound.ids_unselect group
    rw [contains, contains, ids]
  · funext id
    rw [same]
    exact (sound.isGroup_unselect group id).1
  · funext id
    rw [same]
    exact (sound.isGroup_unselect group id).2
  · rw [same]
    exact sound.parent?_unselect group

/-- A subgroup with the clause before it, which together are all of their group. -/
theorem ungroup_group_after_subgroup :
    let edits : List Edit := [.fresh, .fresh, .fresh, .mark 2, .mark 3, .group NodeId.root, .fresh,
      .mark 1, .mark 2, .mark 3, .group NodeId.root, .mark 1, .mark 2, .mark 3, .mark 5]
    let tree := after edits
    let grouped := tree.apply (.group 6)
    let back := grouped.apply (.ungroup 7)
    tree.canGroup 6 = true ∧ tree.contains 7 = false ∧ grouped.contains 7 = true ∧
      tree.children 6 = [1, 4] ∧ grouped.children 6 = [7] ∧ back.children = tree.children ∧
      back.parent? = tree.parent? := by
  intro edits tree grouped back
  have allowed : tree.canGroup 6 = true := by decide +kernel
  have absent : tree.contains 7 = false := by decide +kernel
  have made : grouped.contains 7 = true := by decide +kernel
  obtain ⟨_, _, _, _, children, parents, _⟩ := ungroup_group_after edits allowed absent made
  exact ⟨allowed, absent, made, by decide +kernel, by decide +kernel, children, parents⟩

end Tree

end WhereEditor
