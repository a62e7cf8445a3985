import WhereEditor.Proofs.Tree.Descent

/-!
How much of a group is marked, told from the clauses below it, at any depth. Main statement: a group
is wholly marked if all of its clauses are, it counts as unmarked if none of them is, and it is
partly marked otherwise, except where some clauses are marked but no item of the group as a whole:
such a group counts as unmarked too.
-/

namespace WhereEditor

namespace Selection

variable {items : List Selection}

theorem ofItems_eq_all_iff : ofItems items = .all ↔ ∀ item ∈ items, item = .all := by
  have counted : items.count .all = items.length ↔ ∀ item ∈ items, item = .all := by
    rw [List.count_eq_length]
    simp only [eq_comm]
  rw [ofItems, ← counted]
  by_cases whole : items.count .all = items.length
  · simp [whole]
  · simp only [whole, if_false, iff_false]
    split <;> exact Selection.noConfusion

theorem ofItems_eq_none_iff : ofItems items = .none ↔ items ≠ [] ∧ .all ∉ items := by
  rw [ofItems, ← List.count_eq_zero]
  by_cases whole : items.count .all = items.length
  · simp only [whole, if_true]
    constructor
    · exact Selection.noConfusion
    · rintro ⟨inhabited, empty⟩
      exact absurd (List.length_eq_zero_iff.mp empty) inhabited
  · have inhabited : items ≠ [] := fun empty => whole (empty ▸ rfl)
    simp only [whole, if_false, inhabited, ne_eq, not_false_eq_true, true_and]
    split <;> simp [*]

theorem eq_partly_iff {selection : Selection} :
    selection = .partly ↔ selection ≠ .all ∧ selection ≠ .none := by
  cases selection <;> simp

end Selection

theorem Forest.selection_eq_all_iff (row : Forest) :
    row.selection = .all ↔ ∀ entry ∈ row.clauses, entry.2.selected = true := by
  rw [selection, Selection.ofItems_eq_all_iff]
  induction row with
  | nil => simp [selections, clauses]
  | clause id body rest ih =>
      rw [selections, clauses, List.forall_mem_cons, List.forall_mem_cons, ih]
      cases body.selected <;> simp
  | group id members rest inner ih =>
      rw [selections, clauses, List.forall_mem_cons, List.forall_mem_append, ih,
        Selection.ofItems_eq_all_iff, inner]

namespace Tree

variable {tree : Tree} {id group item : NodeId}

def WhollyMarked (tree : Tree) (id : NodeId) : Prop :=
  ∀ entry ∈ tree.clauses, entry.1 = id ∨ tree.Below entry.1 id → entry.2.selected = true

/-- Some clauses below the group are marked, but not those of any of its items as a whole. -/
def Scattered (tree : Tree) (group : NodeId) : Prop :=
  (∃ entry ∈ tree.clausesBelow group, entry.2.selected = true) ∧
    ∀ item ∈ tree.children group, ¬ tree.WhollyMarked item

theorem selection_eq_all_iff (tree : Tree) (group : NodeId) :
    tree.selection group = .all ↔ ∀ entry ∈ tree.clausesBelow group, entry.2.selected = true :=
  Forest.selection_eq_all_iff _

namespace Sound

theorem mark_eq_all_iff (sound : tree.Sound) (member : id ∈ tree.row.ids) :
    tree.mark id = .all ↔ tree.WhollyMarked id := by
  rcases sound.clause_or_group member with ⟨body, held⟩ | ⟨row, found⟩
  · have own : ∀ entry ∈ tree.clauses, entry.1 = id ∨ tree.Below entry.1 id → entry.2 = body := by
      rintro entry there (rfl | below)
      · exact Option.some.inj ((sound.clause?_eq_some_iff.mpr there).symm.trans held)
      · exact absurd below (sound.not_below_clause held entry.1)
    have marked : tree.mark id = .all ↔ body.selected = true := by
      rw [mark_of_clause held]
      cases body.selected <;> decide
    rw [marked]
    constructor
    · intro selected entry there at_
      rw [own entry there at_]
      exact selected
    · intro wholly
      exact wholly (id, body) (sound.clause?_eq_some_iff.mp held) (.inl rfl)
  · have isGroup : tree.isGroup id = true := Option.isSome_iff_exists.mpr ⟨row, found⟩
    have noClause := sound.clause?_eq_none isGroup
    rw [mark_of_group noClause, selection_eq_all_iff]
    constructor
    · rintro all entry there (rfl | deeper)
      · have clause := sound.clause?_eq_some_iff.mpr there
        exact absurd (clause.symm.trans noClause) (by simp)
      · exact all entry (sound.mem_clausesBelow_iff.mpr ⟨there, deeper⟩)
    · intro wholly entry inside
      obtain ⟨there, deeper⟩ := sound.mem_clausesBelow_iff.mp inside
      exact wholly entry there (.inr deeper)

theorem exists_clause_of_item (sound : tree.Sound) (held : item ∈ tree.children group) :
    ∃ entry ∈ tree.clausesBelow group, entry.1 = item ∨ tree.Below entry.1 item := by
  have up := sound.mem_children_iff_parent?.mp held
  have climb : tree.Below item group := Relation.TransGen.single up
  have live := sound.mem_ids_of_parent? up
  rcases sound.clause_or_group live with ⟨body, found⟩ | ⟨row, found⟩
  · have there := sound.clause?_eq_some_iff.mp found
    exact ⟨(item, body), sound.mem_clausesBelow_iff.mpr ⟨there, climb⟩, .inl rfl⟩
  · have inner : item ≠ NodeId.root := fun same => sound.root_not_mem (same ▸ live)
    rw [row?_of_ne inner] at found
    obtain ⟨wide, occupied⟩ := sound.occupied.members? found
    obtain ⟨entry, inside⟩ := List.exists_mem_of_ne_nil _ (Forest.clauses_ne_nil occupied wide)
    have below : entry ∈ tree.clausesBelow item := by
      rwa [clausesBelow, row?_of_ne inner, found, Option.getD_some]
    obtain ⟨there, deeper⟩ := sound.mem_clausesBelow_iff.mp below
    exact ⟨entry, sound.mem_clausesBelow_iff.mpr ⟨there, deeper.trans climb⟩, .inr deeper⟩

theorem selection_eq_none_iff (sound : tree.Sound) (inhabited : tree.clausesBelow group ≠ []) :
    tree.selection group = .none ↔ ∀ item ∈ tree.children group, ¬ tree.WhollyMarked item := by
  have filled : tree.children group ≠ [] := by
    intro empty
    have none := Forest.eq_nil_of_width_eq_zero (congrArg List.length empty)
    exact inhabited (by rw [clausesBelow, none]; rfl)
  rw [sound.selection_eq, Selection.ofItems_eq_none_iff]
  constructor
  · rintro ⟨_, unmarked⟩ item held wholly
    have live := sound.mem_ids_of_parent? (sound.mem_children_iff_parent?.mp held)
    have marked := (sound.mark_eq_all_iff live).mpr wholly
    exact unmarked (List.mem_map.mpr ⟨item, held, marked⟩)
  · intro unmarked
    refine ⟨by simpa using filled, fun marked => ?_⟩
    obtain ⟨item, held, all⟩ := List.mem_map.mp marked
    have live := sound.mem_ids_of_parent? (sound.mem_children_iff_parent?.mp held)
    exact unmarked item held ((sound.mark_eq_all_iff live).mp all)

end Sound

/-- In every tree that edits lead to, a group with clauses below it is wholly marked exactly if all
of them are, and apart from scattered marks it is unmarked exactly if none of them is, and partly
marked otherwise. With scattered marks it counts as unmarked. -/
theorem selection_after (edits : List Edit) {group : NodeId}
    (inhabited : (after edits).clausesBelow group ≠ []) :
    let tree := after edits
    let below := tree.clausesBelow group
    (tree.selection group = .all ↔ ∀ entry ∈ below, entry.2.selected = true) ∧
      (tree.selection group = .none ↔
        (∀ entry ∈ below, entry.2.selected = false) ∨ tree.Scattered group) ∧
      (tree.selection group = .partly ↔
        (∃ entry ∈ below, entry.2.selected = true) ∧
          (∃ entry ∈ below, entry.2.selected = false) ∧ ¬ tree.Scattered group) := by
  intro tree below
  have sound : tree.Sound := sound_after edits
  have all := tree.selection_eq_all_iff group
  have none : tree.selection group = .none ↔
      (∀ entry ∈ below, entry.2.selected = false) ∨ tree.Scattered group := by
    rw [sound.selection_eq_none_iff inhabited]
    constructor
    · intro unmarked
      by_cases marked : ∃ entry ∈ below, entry.2.selected = true
      · exact .inr ⟨marked, unmarked⟩
      · refine .inl fun entry inside => ?_
        simpa using fun selected => marked ⟨entry, inside, selected⟩
    · rintro (unmarked | scattered) item held
      · intro wholly
        obtain ⟨entry, inside, at_⟩ := sound.exists_clause_of_item held
        have marked := wholly entry (sound.mem_clausesBelow_iff.mp inside).1 at_
        exact absurd ((unmarked entry inside).symm.trans marked) Bool.false_ne_true
      · exact scattered.2 item held
  refine ⟨all, none, ?_⟩
  rw [Selection.eq_partly_iff, ne_eq, ne_eq, all, none]
  simp only [not_or, not_forall, exists_prop, Bool.not_eq_true, Bool.not_eq_false]
  exact and_left_comm

/-- A clause that is marked beside a group that is marked in part. -/
theorem selection_after_nested :
    let edits : List Edit := [.fresh, .fresh, .fresh, .mark 2, .mark 3, .group NodeId.root,
      .mark 1, .mark 2, .mark 3, .group NodeId.root, .mark 1, .mark 2]
    (after edits).clausesBelow 5 ≠ [] ∧ (after edits).selection 5 = .partly ∧
      ¬ (after edits).Scattered 5 := by
  intro edits
  have inhabited : (after edits).clausesBelow 5 ≠ [] := by decide +kernel
  have partly : (after edits).selection 5 = .partly := by decide +kernel
  exact ⟨inhabited, partly, ((selection_after edits inhabited).2.2.mp partly).2.2⟩

/-- A group of the root that is marked in part, and nothing else at the root. -/
theorem exists_marked_below_unmarked :
    let tree := after [.fresh, .fresh, .mark 1, .mark 2, .group NodeId.root, .mark 1]
    tree.selection NodeId.root = .none ∧
      (∃ entry ∈ tree.clausesBelow NodeId.root, entry.2.selected = true) ∧
      ∃ entry ∈ tree.clausesBelow NodeId.root, entry.2.selected = false := by
  decide +kernel

end Tree

end WhereEditor
