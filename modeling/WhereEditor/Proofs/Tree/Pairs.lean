import WhereEditor.Proofs.Tree.Grouping

/-!
The rule that every group but the root has two items or more, and grouping inside a group that need
not be the root. Main statement: grouping keeps the rule unless it takes in all items of a group other
than the root, which is then left with the new group alone.
-/

namespace WhereEditor.Tree

variable {tree grouped : Tree} {group : NodeId}

def Paired (tree : Tree) : Prop :=
  ∀ id, id ≠ NodeId.root → tree.isGroup id = true → 2 ≤ (tree.children id).length

/-- A group other than the root, every clause of which is marked. -/
def Swallowed (tree : Tree) (group : NodeId) : Prop :=
  group ≠ NodeId.root ∧ tree.isGroup group = true ∧
    ∀ entry ∈ tree.clausesBelow group, entry.2.selected = true

theorem Sound.markedItems_eq_children_iff (sound : tree.Sound) :
    tree.markedItems group = tree.children group ↔
      ∀ entry ∈ tree.clausesBelow group, entry.2.selected = true := by
  rw [← selection_eq_all_iff, sound.selection_eq, Selection.ofItems_eq_all_iff, List.forall_mem_map,
    markedItems, List.filter_eq_self]
  simp only [decide_eq_true_eq]

theorem Paired.groupable_of_swallowed (paired : tree.Paired) (sound : tree.Sound)
    (swallowed : tree.Swallowed group) : tree.Groupable group := by
  obtain ⟨inner, isGroup, marked⟩ := swallowed
  have all := sound.markedItems_eq_children_iff.mpr marked
  have many := paired group inner isGroup
  refine ⟨fun item member partly => ?_, all ▸ many, all ▸ List.infix_rfl⟩
  rw [← all] at member
  have whole := of_decide_eq_true (List.mem_filter.mp member).2
  rw [partly] at whole
  exact Selection.noConfusion whole

theorem Grouped.two_le_length_children (grouping : tree.Grouped group grouped)
    (rest : tree.markedItems group ≠ tree.children group) :
    2 ≤ (grouped.children group).length := by
  obtain ⟨before, beyond, cut, place⟩ := grouping.place
  rw [place, List.length_append, List.length_cons]
  have more : before.length ≠ 0 ∨ beyond.length ≠ 0 := by
    by_contra none
    obtain ⟨first, last⟩ := not_or.mp none
    rw [List.eq_nil_of_length_eq_zero (not_not.mp first),
      List.eq_nil_of_length_eq_zero (not_not.mp last), List.nil_append, List.append_nil] at cut
    exact rest cut.symm
  omega

theorem Grouped.children_of_all (grouping : tree.Grouped group grouped)
    (all : tree.markedItems group = tree.children group) :
    grouped.children group = [tree.next] := by
  obtain ⟨before, beyond, cut, place⟩ := grouping.place
  rw [all] at cut
  have lengths := congrArg List.length cut
  simp only [List.length_append] at lengths
  have first : before = [] := List.eq_nil_of_length_eq_zero (by omega)
  have last : beyond = [] := List.eq_nil_of_length_eq_zero (by omega)
  rw [place, first, last, List.nil_append]

theorem Paired.others (paired : tree.Paired) (grouping : tree.Grouped group grouped)
    (groupable : tree.Groupable group) (id : NodeId) (inner : id ≠ NodeId.root) (other : id ≠ group)
    (isGroup : grouped.isGroup id = true) : 2 ≤ (grouped.children id).length := by
  by_cases fresh : id = tree.next
  · rw [fresh, grouping.members.2]
    exact groupable.2.1
  · obtain ⟨same, items⟩ := grouping.others id other fresh
    rw [items]
    exact paired id inner (same ▸ isGroup)

theorem Sound.paired (sound : tree.Sound 2) : tree.Paired :=
  fun _ inner isGroup => sound.le_length_children inner isGroup

namespace Sound

theorem grouped_of_groupable (sound : tree.Sound) (groupable : tree.Groupable group) :
    tree.Grouped group (tree.apply (.group group)) :=
  sound.grouped_of_groupSelected? (groupSelected?_eq_apply (sound.canGroup_iff.mpr groupable))

theorem apply_group_of_not_groupable (sound : tree.Sound) (refused : ¬ tree.Groupable group) :
    tree.apply (.group group) = tree := by
  have none : tree.groupSelected? group = none := by
    rw [← Option.not_isSome_iff_eq_none, isSome_groupSelected?]
    exact fun can => refused (sound.canGroup_iff.mp can)
  rw [Tree.apply, none, Option.getD_none]

end Sound

/-- In every tree that edits lead to and in which each group but the root has two items or more,
grouping in any group keeps it so, unless it takes in all items of a group other than the root. That
group then has the new one as its only item, and all others have two or more still. -/
theorem paired_group_iff (edits : List Edit) (paired : (after edits).Paired) (group : NodeId) :
    let tree := after edits
    let grouped := tree.apply (.group group)
    (grouped.Paired ↔ ¬ tree.Swallowed group) ∧
      (tree.Swallowed group →
        grouped.children group = [tree.next] ∧ grouped.children tree.next = tree.children group) ∧
      ∀ id, id ≠ NodeId.root → id ≠ group → grouped.isGroup id = true →
        2 ≤ (grouped.children id).length := by
  intro tree grouped
  have sound : tree.Sound := sound_after edits
  by_cases groupable : tree.Groupable group
  · have grouping : tree.Grouped group grouped := sound.grouped_of_groupable groupable
    have others := paired.others grouping groupable
    refine ⟨⟨?_, ?_⟩, ?_, others⟩
    · intro kept swallowed
      have alone := grouping.children_of_all (sound.markedItems_eq_children_iff.mpr swallowed.2.2)
      have isGroup : grouped.isGroup group = true :=
        isGroup_of_mem_children (alone ▸ List.mem_singleton_self tree.next)
      have many := kept group swallowed.1 isGroup
      rw [alone] at many
      simp at many
    · intro free id inner isGroup
      by_cases same : id = group
      · subst same
        refine grouping.two_le_length_children fun all => free ⟨inner, ?_, ?_⟩
        · have filled : 0 < (tree.markedItems id).length := by
            have many := groupable.2.1
            omega
          obtain ⟨item, member⟩ := List.exists_mem_of_length_pos filled
          exact isGroup_of_mem_children (all ▸ member)
        · exact sound.markedItems_eq_children_iff.mp all
      · exact others id inner same isGroup
    · intro swallowed
      have all := sound.markedItems_eq_children_iff.mpr swallowed.2.2
      exact ⟨grouping.children_of_all all, grouping.members.2.trans all⟩
  · have same : grouped = tree := sound.apply_group_of_not_groupable groupable
    have free : ¬ tree.Swallowed group := fun swallowed =>
      groupable (paired.groupable_of_swallowed sound swallowed)
    rw [same]
    exact ⟨⟨fun _ => free, fun _ => paired⟩, fun swallowed => absurd swallowed free,
      fun id inner _ => paired id inner⟩

/-- Two of the three items of a group that is not the root. -/
theorem paired_group_inside :
    let edits : List Edit := [.fresh, .fresh, .fresh, .fresh, .mark 1, .mark 2, .mark 3,
      .group NodeId.root, .mark 1, .mark 2]
    (after edits).Paired ∧ ¬ (after edits).Swallowed 5 ∧
      ((after edits).apply (.group 5)).children 5 = [6, 3] ∧
      ((after edits).apply (.group 5)).Paired := by
  intro edits
  have outermost : ∀ edit ∈ edits, edit.Outermost := by
    simp [edits, Edit.fresh, Edit.mark, Edit.Outermost]
  have paired : (after edits).Paired := (Sound.empty.foldl_apply edits outermost).paired
  have free : ¬ (after edits).Swallowed 5 := fun swallowed =>
    absurd swallowed.2.2 (by decide +kernel)
  exact ⟨paired, free, by decide +kernel, (paired_group_iff edits paired 5).1.mpr free⟩

/-- The only two items of a group, both marked, and grouping in that group. -/
theorem exists_group_of_one :
    let edits : List Edit := [.fresh, .fresh, .mark 1, .mark 2, .group NodeId.root, .mark 1,
      .mark 2]
    (after edits).Paired ∧ ((after edits).apply (.group 3)).children 3 = [4] ∧
      ¬ ((after edits).apply (.group 3)).Paired := by
  intro edits
  have outermost : ∀ edit ∈ edits, edit.Outermost := by
    simp [edits, Edit.fresh, Edit.mark, Edit.Outermost]
  refine ⟨(Sound.empty.foldl_apply edits outermost).paired, by decide +kernel, fun kept => ?_⟩
  exact absurd (kept 3 (by decide) (by decide +kernel)) (by decide +kernel)

end WhereEditor.Tree
