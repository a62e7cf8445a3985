import WhereEditor.Proofs.Support
import WhereEditor.Proofs.Tree.Marking
import WhereEditor.Proofs.Tree.Rows
import WhereEditor.Proofs.Tree.Scan

/-!
Grouping the marked items of a group. Main statement: in every tree that edits lead to, the marked
items of a group can be grouped exactly if they are two neighbours or more and no item of the group
is marked in part; they become the items of a new group in their place, the marks below the old group
go, and all else stays.
-/

namespace WhereEditor

namespace Forest

variable {target : NodeId}

/-! ## The rows of the other groups -/

theorem members?_unselect (row : Forest) (target : NodeId) :
    row.unselect.members? target = (row.members? target).map unselect := by
  induction row with
  | nil => rfl
  | clause id body rest ih => exact ih
  | group id members rest inner ih =>
      rw [unselect, members?_group, members?_group, inner, ih]
      split
      · rfl
      · rw [Option.map_or]

theorem members?_wrap (row : Forest) (start count : Nat) {fresh : NodeId} (other : fresh ≠ target) :
    (row.wrap start count fresh).members? target = row.members? target := by
  have cut := congrArg (members? target) (take_append_drop row start)
  have run := congrArg (members? target) (take_append_drop (row.drop start) count)
  rw [members?_append] at cut run
  rw [drop_drop] at run
  rw [wrap, members?_append, members?_group, if_neg other, run, cut]

theorem unselect_append (row tail : Forest) :
    (row ++ tail).unselect = row.unselect ++ tail.unselect := by
  induction row with
  | nil => rfl
  | clause id body rest ih => simp [unselect, ih]
  | group id members rest _ ih => simp [unselect, ih]

end Forest

namespace Tree

variable {tree : Tree} {group : NodeId} {row : Forest}

/-! ## What can be grouped -/

def markedItems (tree : Tree) (group : NodeId) : List NodeId :=
  (tree.children group).filter fun item => tree.mark item = .all

/-- No item of the group is marked in part, and the marked ones are two neighbours or more. -/
def Groupable (tree : Tree) (group : NodeId) : Prop :=
  (∀ item ∈ tree.children group, tree.mark item ≠ .partly) ∧
    2 ≤ (tree.markedItems group).length ∧ tree.markedItems group <:+: tree.children group

theorem filter_eq_nil_of_unmarked {items : List NodeId} {count : Nat}
    (unmarked : items.map tree.mark = List.replicate count .none) :
    items.filter (fun item => tree.mark item = .all) = [] := by
  refine List.filter_eq_nil_iff.mpr fun item member => ?_
  have same := List.eq_of_mem_replicate (unmarked ▸ List.mem_map_of_mem (f := tree.mark) member)
  simp [same]

theorem map_mark_of_filter_eq_nil {items : List NodeId}
    (whole : ∀ item ∈ items, tree.mark item ≠ .partly)
    (unmarked : items.filter (fun item => tree.mark item = .all) = []) :
    items.map tree.mark = List.replicate items.length .none := by
  refine List.map_eq_replicate_iff.mpr fun item member => ?_
  have notWhole := List.filter_eq_nil_iff.mp unmarked item member
  cases mark : tree.mark item with
  | all => exact absurd (decide_eq_true mark) notWhole
  | partly => exact absurd mark (whole item member)
  | none => rfl

namespace Sound

theorem run?_eq (sound : tree.Sound) (group : NodeId) :
    tree.run? group = Selection.run? ((tree.children group).map tree.mark) := by
  rw [run?, children]
  cases found : tree.row? group with
  | none => rfl
  | some row => rw [Option.bind_some, Option.getD_some, sound.selections_row? found]

theorem run?_eq_some_iff (sound : tree.Sound) {start count : Nat} :
    tree.run? group = some (start, count) ↔
      (∀ item ∈ tree.children group, tree.mark item ≠ .partly) ∧ 2 ≤ count ∧
        ∃ before beyond, tree.children group = before ++ (tree.markedItems group ++ beyond) ∧
          before.length = start ∧ (tree.markedItems group).length = count := by
  rw [sound.run?_eq, Selection.run?_eq_some_iff]
  constructor
  · rintro ⟨many, rest, blocks⟩
    have whole : ∀ item ∈ tree.children group, tree.mark item ≠ .partly := by
      intro item member
      have marked := blocks ▸ List.mem_map_of_mem (f := tree.mark) member
      simp only [List.mem_append, List.mem_replicate] at marked
      rcases marked with ⟨_, same⟩ | ⟨_, same⟩ | ⟨_, same⟩ <;> simp [same]
    obtain ⟨before, later, cut, first, others⟩ := List.map_eq_append_iff.mp blocks
    obtain ⟨run, beyond, rfl, middle, last⟩ := List.map_eq_append_iff.mp others
    have all : ∀ item ∈ run, decide (tree.mark item = .all) = true := fun item member =>
      decide_eq_true (List.eq_of_mem_replicate
        (middle ▸ List.mem_map_of_mem (f := tree.mark) member))
    have marked : tree.markedItems group = run := by
      rw [markedItems, cut, List.filter_append, List.filter_append,
        filter_eq_nil_of_unmarked first, filter_eq_nil_of_unmarked last,
        List.filter_eq_self.mpr all, List.nil_append, List.append_nil]
    refine ⟨whole, many, before, beyond, marked ▸ cut, ?_, ?_⟩
    · simpa using congrArg List.length first
    · simpa [marked] using congrArg List.length middle
  · rintro ⟨whole, many, before, beyond, cut, rfl, rfl⟩
    obtain ⟨first, last⟩ := filter_eq_nil_of_cut cut
    have marked : (tree.markedItems group).map tree.mark =
        List.replicate (tree.markedItems group).length .all :=
      List.map_eq_replicate_iff.mpr fun item member => by simpa using (List.mem_filter.mp member).2
    rw [cut, List.forall_mem_append, List.forall_mem_append] at whole
    refine ⟨many, beyond.length, ?_⟩
    rw [cut, List.map_append, List.map_append, marked, map_mark_of_filter_eq_nil whole.1 first,
      map_mark_of_filter_eq_nil whole.2.2 last]

theorem canGroup_iff (sound : tree.Sound) : tree.canGroup group = true ↔ tree.Groupable group := by
  rw [canGroup, Option.isSome_iff_exists]
  constructor
  · rintro ⟨⟨start, count⟩, found⟩
    obtain ⟨whole, many, before, beyond, cut, _, length⟩ := sound.run?_eq_some_iff.mp found
    exact ⟨whole, length ▸ many, before, beyond, by rw [cut, List.append_assoc]⟩
  · rintro ⟨whole, many, before, beyond, cut⟩
    rw [List.append_assoc] at cut
    exact ⟨(before.length, _), sound.run?_eq_some_iff.mpr
      ⟨whole, many, before, beyond, cut.symm, rfl, rfl⟩⟩

end Sound

/-! ## What grouping does -/

/-- The marked items of a group are the items of a new one in their place, no mark is left below the
old group, and all else is as it was. -/
structure Grouped (tree : Tree) (group : NodeId) (grouped : Tree) : Prop where
  fresh : tree.contains tree.next = false
  contains : ∀ id, grouped.contains id = true ↔ tree.contains id = true ∨ id = tree.next
  members : grouped.isGroup tree.next = true ∧ grouped.children tree.next = tree.markedItems group
  place : ∃ before beyond, tree.children group = before ++ (tree.markedItems group ++ beyond) ∧
    grouped.children group = before ++ tree.next :: beyond
  others : ∀ id, id ≠ group → id ≠ tree.next →
    grouped.isGroup id = tree.isGroup id ∧ grouped.children id = tree.children id
  clauses : grouped.clauses = tree.clauses.map fun entry =>
    if entry ∈ tree.clausesBelow group then (entry.1, { entry.2 with selected := false }) else entry

variable {grouped : Tree} {start count : Nat}

theorem isSome_groupSelected? (tree : Tree) (group : NodeId) :
    (tree.groupSelected? group).isSome = tree.canGroup group :=
  Option.isSome_map

theorem groupSelected?_eq_apply (can : tree.canGroup group = true) :
    tree.groupSelected? group = some (tree.apply (.group group)) := by
  rw [← isSome_groupSelected?] at can
  obtain ⟨grouped, done⟩ := Option.isSome_iff_exists.mp can
  rw [apply, done, Option.getD_some]

theorem eq_of_groupSelected? (run : tree.run? group = some (start, count))
    (done : tree.groupSelected? group = some grouped) :
    grouped = { tree.updateRow group fun row => (row.wrap start count tree.next).unselect with
      next := tree.next + 1 } := by
  have both := tree.updateRow_updateRow group (·.wrap start count tree.next) Forest.unselect
  rw [Tree.groupSelected?, run, Option.map_some] at done
  rw [← Option.some.inj done, ← both]
  rfl

namespace Sound

section Done

variable (sound : tree.Sound) (found : tree.row? group = some row)
  (run : tree.run? group = some (start, count)) (done : tree.groupSelected? group = some grouped)

include sound found run done

theorem exists_layers_grouped :
    ∃ layers, Layer.holder layers = group ∧ tree.row = row.within layers ∧
      grouped.row = (row.wrap start count tree.next).unselect.within layers := by
  obtain ⟨layers, held, whole, edited⟩ := sound.exists_layers found
  refine ⟨layers, held, whole, ?_⟩
  rw [eq_of_groupSelected? run done]
  exact edited _

theorem row?_grouped :
    grouped.row? group = some (row.wrap start count tree.next).unselect ∧
      grouped.row? tree.next = some ((row.drop start).take count).unselect := by
  obtain ⟨layers, rfl, _, after⟩ := sound.exists_layers_grouped found run done
  have kept : grouped.Sound := sound.groupSelected? (by decide) (.inr rfl) done
  refine ⟨kept.row?_holder after, ?_⟩
  have inner : grouped.row = ((row.drop start).take count).unselect.within
      (⟨(row.take start).unselect, tree.next, (row.drop (start + count)).unselect⟩ :: layers) := by
    rw [after, Forest.wrap, Forest.unselect_append]
    rfl
  exact kept.row?_holder inner

theorem isGroup_grouped {id : NodeId} (other : id ≠ group) (old : id ≠ tree.next) :
    grouped.isGroup id = tree.isGroup id ∧ grouped.children id = tree.children id := by
  obtain ⟨layers, rfl, whole, after⟩ := sound.exists_layers_grouped found run done
  refine isGroup_eq_of_within whole after ?_
  rw [Forest.rowIn?, Forest.rowIn?, if_neg other, if_neg other, Forest.members?_unselect,
    Forest.members?_wrap row start count (Ne.symm old), Option.map_map]
  congr 1
  exact funext Forest.heads_unselect

theorem clauses_grouped :
    grouped.clauses = tree.clauses.map fun entry =>
      if entry ∈ tree.clausesBelow group then (entry.1, { entry.2 with selected := false })
      else entry := by
  obtain ⟨layers, _, whole, after⟩ := sound.exists_layers_grouped found run done
  obtain ⟨_, _, apart⟩ := Forest.nodup_within_iff.mp (whole ▸ sound.distinct)
  obtain ⟨before, beyond, outside, around⟩ := Forest.exists_clauses_within layers
  have away : ∀ entry ∈ before ++ beyond, entry ∉ row.clauses := fun entry far inside =>
    apart entry.1 (Forest.mem_ids_of_mem_clauses inside) (outside entry far)
  rw [clauses, clauses, after, whole, around, around, Forest.clauses_unselect,
    Forest.clauses_wrap, clausesBelow, found, Option.getD_some, List.map_append, List.map_append]
  have kept : ∀ side : List (NodeId × Clause), (∀ entry ∈ side, entry ∈ before ++ beyond) →
      (side.map fun entry => if entry ∈ row.clauses then
        (entry.1, { entry.2 with selected := false }) else entry) = side := by
    intro side inside
    refine (List.map_congr_left fun entry member => ?_).trans (List.map_id side)
    exact if_neg (away entry (inside entry member))
  have cleared : (row.clauses.map fun entry => if entry ∈ row.clauses then
      (entry.1, { entry.2 with selected := false }) else entry) =
        row.clauses.map fun entry => (entry.1, { entry.2 with selected := false }) :=
    List.map_congr_left fun entry member => if_pos member
  rw [cleared, kept before fun entry => List.mem_append_left _,
    kept beyond fun entry => List.mem_append_right _]

end Done

theorem grouped_of_groupSelected? (sound : tree.Sound)
    (done : tree.groupSelected? group = some grouped) : tree.Grouped group grouped := by
  obtain ⟨⟨start, count⟩, run, _⟩ := Option.map_eq_some_iff.mp done
  obtain ⟨row, found, _⟩ := run?_bounds run
  obtain ⟨_, _, before, beyond, cut, rfl, rfl⟩ := sound.run?_eq_some_iff.mp run
  obtain ⟨outer, inner⟩ := sound.row?_grouped found run done
  have heads : row.heads = before ++ (tree.markedItems group ++ beyond) := by
    rw [← cut, children, found, Option.getD_some]
  refine ⟨sound.contains_next, contains_iff_of_perm (sound.ids_groupSelected?_perm done), ⟨?_, ?_⟩,
    ⟨before, beyond, cut, ?_⟩, ?_, sound.clauses_grouped found run done⟩
  · rw [isGroup, inner]
    rfl
  · rw [children, inner, Option.getD_some, Forest.heads_unselect, Forest.heads_take,
      Forest.heads_drop, heads]
    simp
  · rw [children, outer, Option.getD_some, Forest.heads_unselect, Forest.wrap,
      Forest.heads_append, Forest.heads, Forest.heads_take, Forest.heads_drop, heads]
    simp
  · intro id other old
    exact sound.isGroup_grouped found run done other old

end Sound

/-- In every tree that edits lead to, the scan finds the marked items of a group, and grouping succeeds
exactly where they can be grouped; it is refused without a trace, and makes a new group of them
otherwise. -/
theorem grouping_after (edits : List Edit) (group : NodeId) :
    let tree := after edits
    let marks := (tree.children group).map tree.mark
    (Scan.along {} 0 marks).run? marks.length = tree.run? group ∧
      (tree.canGroup group = true ↔ tree.Groupable group) ∧
      (tree.groupSelected? group).isSome = tree.canGroup group ∧
      (tree.canGroup group = false → tree.apply (.group group) = tree) ∧
      (tree.canGroup group = true → tree.Grouped group (tree.apply (.group group))) := by
  intro tree marks
  have sound : tree.Sound := sound_after edits
  have can : (tree.groupSelected? group).isSome = tree.canGroup group := Option.isSome_map
  refine ⟨(Scan.run?_along marks).trans (sound.run?_eq group).symm, sound.canGroup_iff, can, ?_, ?_⟩
  · intro refused
    rw [← can, Option.isSome_eq_false_iff, Option.isNone_iff_eq_none] at refused
    rw [apply, refused, Option.getD_none]
  · intro allowed
    rw [← can] at allowed
    obtain ⟨grouped, done⟩ := Option.isSome_iff_exists.mp allowed
    rw [apply, done, Option.getD_some]
    exact sound.grouped_of_groupSelected? done

/-- A group and a clause at the end of the root, behind a clause that is not marked. -/
theorem grouping_after_subgroup :
    let edits : List Edit := [.fresh, .fresh, .fresh, .fresh, .mark 2, .mark 3, .group NodeId.root,
      .mark 2, .mark 3, .mark 4]
    let tree := after edits
    tree.Groupable NodeId.root ∧ tree.markedItems NodeId.root = [5, 4] ∧
      tree.Grouped NodeId.root (tree.apply (.group NodeId.root)) := by
  intro edits tree
  obtain ⟨_, groupable, _, _, grouped⟩ := grouping_after edits NodeId.root
  have allowed : tree.canGroup NodeId.root = true := by decide +kernel
  exact ⟨groupable.mp allowed, by decide +kernel, grouped allowed⟩

end Tree

end WhereEditor
