import Mathlib.Data.List.MinMax
import Mathlib.Order.Bounds.Defs
import WhereEditor.Proofs.Support
import WhereEditor.Proofs.Tree.Deepest
import WhereEditor.Proofs.Tree.Descent

/-!
Which of the deepest groups is found, and how deep the clauses lie. Main statements: the group that is
found as the deepest one is the first of the groups looked at, in the order of the tree, that no other
of them lies below; and the tree reaches as deep below a group as its deepest clause there.
-/

namespace WhereEditor

open Relation

/-! ## The best so far -/

def deeper (best next : NodeId × Nat) : NodeId × Nat := if best.2 < next.2 then next else best

theorem deeper_of_lt {best next : NodeId × Nat} (lower : best.2 < next.2) :
    deeper best next = next := if_pos lower

theorem deeper_of_not_lt {best next : NodeId × Nat} (level : ¬ best.2 < next.2) :
    deeper best next = best := if_neg level

theorem deeper_assoc (first second third : NodeId × Nat) :
    deeper (deeper first second) third = deeper first (deeper second third) := by
  by_cases later : second.2 < third.2
  · rw [deeper_of_lt later]
    by_cases lower : first.2 < second.2
    · rw [deeper_of_lt lower, deeper_of_lt later, deeper_of_lt (Nat.lt_trans lower later)]
    · rw [deeper_of_not_lt lower]
  · rw [deeper_of_not_lt later]
    by_cases lower : first.2 < second.2
    · rw [deeper_of_lt lower, deeper_of_not_lt later]
    · have level : ¬ first.2 < third.2 := by omega
      rw [deeper_of_not_lt lower, deeper_of_not_lt level]

theorem deeper_add (base : Nat) (first second : NodeId × Nat) :
    deeper (first.1, base + first.2) (second.1, base + second.2) =
      ((deeper first second).1, base + (deeper first second).2) := by
  simp only [deeper, Nat.add_lt_add_iff_left]
  split <;> rfl

/-- What is left at the end is the first of the deepest. -/
theorem exists_foldl_deeper (depth : NodeId → Nat) (ids : List NodeId) (start : NodeId) :
    ∃ found ∈ (start :: ids).argmax depth,
      (ids.map fun id => (id, depth id)).foldl deeper (start, depth start) =
        (found, depth found) := by
  induction ids generalizing start with
  | nil => exact ⟨start, rfl, rfl⟩
  | cons id later ih =>
      rw [List.map_cons, List.foldl_cons, deeper]
      by_cases lower : depth start < depth id
      · have same : (start :: id :: later).argmax depth = (id :: later).argmax depth := by
          simp [List.argmax, List.argAux, lower]
        rw [if_pos lower, same]
        exact ih id
      · have same : (start :: id :: later).argmax depth = (start :: later).argmax depth := by
          simp [List.argmax, List.argAux, lower]
        rw [if_neg lower, same]
        exact ih start

namespace Forest

/-! ## The groups of a row -/

def groups : Forest → List NodeId
  | nil => []
  | clause _ _ rest => rest.groups
  | group id members rest => id :: (members.groups ++ rest.groups)

@[simp] theorem groups_append (left right : Forest) :
    (left ++ right).groups = left.groups ++ right.groups := by
  induction left with
  | nil => rfl
  | clause id body rest ih => exact ih
  | group id members rest _ ih => simp [groups, ih]

theorem groups_sublist_ids (row : Forest) : row.groups.Sublist row.ids := by
  induction row with
  | nil => exact .slnil
  | clause id body rest ih => exact ih.cons _
  | group id members rest inner ih => exact (inner.append ih).cons_cons _

theorem mem_groups_iff {row : Forest} {id : NodeId} :
    id ∈ row.groups ↔ (row.members? id).isSome = true := by
  induction row with
  | nil => simp [groups, members?]
  | clause first body rest ih => exact ih
  | group first members rest inner ih =>
      rw [groups, members?_group, List.mem_cons, List.mem_append, inner, ih]
      by_cases same : first = id
      · simp [same]
      · simp [same, Ne.symm same, Option.isSome_or]

theorem deepest?_group_eq_deeper (id : NodeId) (members rest : Forest) :
    (group id members rest).deepest? =
      let here := members.deepest?.elim (id, 0) fun found => (found.1, found.2 + 1)
      some (rest.deepest?.elim here (deeper here)) := by
  rw [deepest?_group]
  cases members.deepest? <;> cases rest.deepest? <;> simp [deeper, apply_ite some]

/-- Whatever the best was before, going through the groups of a row leaves the first of the deepest of
them if that lies deeper. -/
theorem foldl_deeper_groups {row : Forest} {depth : NodeId → Nat} {base : Nat}
    (levels : ∀ id level, row.Nests id level → depth id = base + level) (best : NodeId × Nat) :
    (row.groups.map fun id => (id, depth id)).foldl deeper best =
      row.deepest?.elim best fun found => deeper best (found.1, base + found.2) := by
  induction row generalizing base best with
  | nil => rfl
  | clause first body rest ih =>
      exact ih (fun id level nests => levels id level (.afterClause nests)) best
  | group holder members rest inner ih =>
      have own : depth holder = base := levels holder 0 .here
      have inside : ∀ best, (members.groups.map fun id => (id, depth id)).foldl deeper best =
          members.deepest?.elim best fun found => deeper best (found.1, base + 1 + found.2) :=
        inner fun id level nests => by
          rw [levels id (level + 1) (.inside nests), Nat.add_right_comm, Nat.add_assoc]
      have later := ih fun id level nests => levels id level (.afterGroup nests)
      have here : (members.groups.map fun id => (id, depth id)).foldl deeper
            (deeper best (holder, base)) =
          let found := members.deepest?.elim (holder, 0) fun found => (found.1, found.2 + 1)
          deeper best (found.1, base + found.2) := by
        rw [inside]
        cases members.deepest? with
        | none => rfl
        | some found =>
            have below : deeper (holder, base) (found.1, base + 1 + found.2) =
                (found.1, base + (found.2 + 1)) := by
              have lower : base < base + 1 + found.2 := by omega
              rw [deeper_of_lt lower, Nat.add_assoc, Nat.add_comm 1]
            rw [Option.elim_some, deeper_assoc, below]
            rfl
      rw [groups, List.map_cons, List.foldl_cons, List.map_append, List.foldl_append, own, here,
        later, deepest?_group_eq_deeper]
      cases rest.deepest? with
      | none => rfl
      | some other =>
          simp only [Option.elim_some]
          rw [deeper_assoc, deeper_add]

/-! ## A row without one of its items -/

theorem eraseIdx_of_width_le {row : Forest} {index : Nat} (outside : row.width ≤ index) :
    row.eraseIdx index = row := by
  have here : row.drop index = nil := eq_nil_of_width_eq_zero (by rw [width_drop]; omega)
  have beyond : row.drop (index + 1) = nil := eq_nil_of_width_eq_zero (by rw [width_drop]; omega)
  have whole := row.take_append_drop index
  rw [here, append_nil] at whole
  rw [eraseIdx, whole, beyond, append_nil]

theorem exists_item_of_lt_width {row : Forest} {index : Nat} (inside : index < row.width) :
    ∃ left target item right,
      row = left ++ (item ++ right) ∧ Item target item ∧ left.width = index := by
  rcases eq_nil_or_exists_item (row.drop index) with empty | ⟨target, item, right, whole, isItem⟩
  · have none_ := row.width_drop index
    rw [empty, width_nil] at none_
    omega
  · refine ⟨row.take index, target, item, right, ?_, isItem, ?_⟩
    · rw [← whole, take_append_drop]
    · rw [width_take]
      omega

theorem mem_groups_iff_of_item {left item right : Forest} {id : NodeId}
    (distinct : (left ++ (item ++ right)).ids.Nodup) :
    id ∈ (left ++ right).groups ↔ id ∈ (left ++ (item ++ right)).groups ∧ id ∉ item.ids := by
  simp only [ids_append] at distinct
  obtain ⟨_, itemDistinct, apartLeft⟩ := List.nodup_append.mp distinct
  obtain ⟨_, _, apartRight⟩ := List.nodup_append.mp itemDistinct
  simp only [groups_append, List.mem_append]
  constructor
  · rintro (before | behind)
    · have there := left.groups_sublist_ids.subset before
      exact ⟨.inl before, fun here =>
        apartLeft id there id (List.mem_append_left _ here) rfl⟩
    · have there := right.groups_sublist_ids.subset behind
      exact ⟨.inr (.inr behind), fun here => apartRight id here id there rfl⟩
  · rintro ⟨before | within | behind, outside⟩
    · exact .inl before
    · exact absurd (item.groups_sublist_ids.subset within) outside
    · exact .inr behind

theorem groups_eraseIdx_sublist (row : Forest) (index : Nat) :
    (row.eraseIdx index).groups.Sublist row.groups := by
  by_cases inside : index < row.width
  · obtain ⟨left, target, item, right, rfl, isItem, rfl⟩ := exists_item_of_lt_width inside
    rw [eraseIdx_item isItem, groups_append, groups_append, groups_append]
    exact (List.Sublist.refl _).append (List.sublist_append_right _ _)
  · rw [eraseIdx_of_width_le (Nat.not_lt.mp inside)]

theorem ids_sublist_within (row : Forest) (layers : List Layer) :
    row.ids.Sublist (row.within layers).ids := by
  induction layers generalizing row with
  | nil => exact .refl _
  | cons layer outer ih =>
      have inside : row.ids.Sublist (layer.left ++ group layer.id row layer.right).ids := by
        rw [ids_append, ids]
        exact ((List.sublist_append_left _ _).cons _).trans (List.sublist_append_right _ _)
      exact inside.trans (ih _)

end Forest

namespace Tree

variable {tree : Tree} {group id : NodeId} {row : Forest}

def order (tree : Tree) : List NodeId := NodeId.root :: tree.row.ids

def skipped? (tree : Tree) (group : NodeId) (skip : Option Nat) : Option NodeId :=
  skip.bind fun index => (tree.children group)[index]?

/-- Looked at when the deepest group is searched for from a group on: the group itself and the groups
below it, but for the item that is skipped and what is below that. -/
def Searched (tree : Tree) (group : NodeId) (skip : Option Nat) (id : NodeId) : Prop :=
  id = group ∨ tree.isGroup id = true ∧ tree.Below id group ∧
    ∀ item, tree.skipped? group skip = some item → id ≠ item ∧ ¬ tree.Below id item

structure FirstDeepest (tree : Tree) (group : NodeId) (skip : Option Nat) (found : NodeId) :
    Prop where
  searched : tree.Searched group skip found
  deepest : ∀ id, tree.Searched group skip id → tree.groupDepth id ≤ tree.groupDepth found
  first : ∀ id, tree.Searched group skip id → tree.groupDepth id = tree.groupDepth found →
    id ≠ found → [found, id].Sublist tree.order

def bestAfter (tree : Tree) (best : NodeId × Nat) (row : Forest) : NodeId × Nat :=
  (row.groups.map fun id => (id, tree.groupDepth id)).foldl deeper best

theorem bestAfter_append (best : NodeId × Nat) (left right : Forest) :
    tree.bestAfter best (left ++ right) = tree.bestAfter (tree.bestAfter best left) right := by
  rw [bestAfter, Forest.groups_append, List.map_append, List.foldl_append, bestAfter, bestAfter]

theorem bestAfter_group (best : NodeId × Nat) (id : NodeId) (members rest : Forest) :
    tree.bestAfter best (.group id members rest) =
      tree.bestAfter (tree.bestAfter (deeper best (id, tree.groupDepth id)) members) rest := by
  rw [bestAfter, Forest.groups, List.map_cons, List.foldl_cons, List.map_append, List.foldl_append,
    bestAfter, bestAfter]

def clauseDepths (tree : Tree) (group : NodeId) : Set Nat :=
  {level | ∃ id body, tree.clause? id = some body ∧ tree.Below id group ∧ tree.clauseDepth id = level}

namespace Sound

/-! ## What is looked at -/

theorem mem_groups_iff (sound : tree.Sound) (found : tree.row? group = some row) :
    id ∈ row.groups ↔ tree.isGroup id = true ∧ tree.Below id group := by
  obtain ⟨layers, _, whole, _⟩ := sound.exists_layers found
  have same : id ∈ row.ids → (id ∈ row.groups ↔ tree.isGroup id = true) := by
    intro member
    have inner : id ≠ NodeId.root := by
      rintro rfl
      exact sound.root_not_mem (sound.mem_ids_of_below ((sound.below_iff found).mpr member))
    obtain ⟨_, _, outside⟩ := Forest.nodup_within_iff.mp (whole ▸ sound.distinct)
    rw [Forest.mem_groups_iff, isGroup, row?_of_ne inner, whole,
      Forest.members?_within (outside id member)]
  rw [sound.below_iff found]
  constructor
  · intro listed
    have member := row.groups_sublist_ids.subset listed
    exact ⟨(same member).mp listed, member⟩
  · rintro ⟨isGroup, member⟩
    exact (same member).mpr isGroup

theorem mem_ids_item_iff (sound : tree.Sound) {left item right : Forest} {target : NodeId}
    {layers : List Layer} (whole : tree.row = (left ++ (item ++ right)).within layers)
    (isItem : Forest.Item target item) :
    id ∈ item.ids ↔ id = target ∨ tree.Below id target := by
  cases isItem with
  | clause body =>
      have nothing := sound.not_below_clause (sound.clause?_item whole) id
      simp [Forest.ids, nothing]
  | group members =>
      have inside : tree.row = members.within (⟨left, target, right⟩ :: layers) := whole
      have found : tree.row? target = some members := sound.row?_holder inside
      rw [sound.below_iff found]
      simp [Forest.ids]

theorem searched_iff (sound : tree.Sound) (found : tree.row? group = some row)
    (skip : Option Nat) :
    tree.Searched group skip id ↔ id ∈ group :: (skip.elim row row.eraseIdx).groups := by
  obtain ⟨layers, rfl, whole, _⟩ := sound.exists_layers found
  have items : tree.children (Layer.holder layers) = row.heads := sound.children_holder whole
  have listed : id ∈ row.groups ↔ tree.isGroup id = true ∧ tree.Below id (Layer.holder layers) :=
    sound.mem_groups_iff found
  rw [Searched, List.mem_cons, ← and_assoc, ← listed, skipped?, items]
  refine or_congr_right ?_
  cases skip with
  | none => simp
  | some index =>
      rw [Option.elim_some]
      by_cases inside : index < row.width
      · obtain ⟨left, target, item, right, rfl, isItem, rfl⟩ := Forest.exists_item_of_lt_width inside
        have stands : (left ++ (item ++ right)).heads[left.width]? = some target := by
          simp [isItem.heads, Forest.width]
        obtain ⟨distinct, _, _⟩ := Forest.nodup_within_iff.mp (whole ▸ sound.distinct)
        rw [Forest.eraseIdx_item isItem, Forest.mem_groups_iff_of_item distinct,
          sound.mem_ids_item_iff whole isItem, not_or, Option.bind_some, stands]
        simp
      · have outside := Nat.not_lt.mp inside
        have beyond : row.heads[index]? = none := List.getElem?_eq_none outside
        rw [Forest.eraseIdx_of_width_le outside]
        simp [beyond]

/-! ## The first of the deepest groups -/

theorem groups_sublist_order (sound : tree.Sound) (found : tree.row? group = some row) :
    (group :: row.groups).Sublist tree.order := by
  obtain ⟨layers, rfl, whole, _⟩ := sound.exists_layers found
  rw [order, whole]
  cases layers with
  | nil => exact row.groups_sublist_ids.cons_cons _
  | cons layer outer =>
      have around := Forest.ids_sublist_within (layer.left ++ .group layer.id row layer.right) outer
      have inside : (layer.id :: row.groups).Sublist
          (layer.left ++ .group layer.id row layer.right).ids := by
        rw [Forest.ids_append, Forest.ids]
        have members := row.groups_sublist_ids.trans (List.sublist_append_left _ layer.right.ids)
        exact (members.cons_cons _).trans (List.sublist_append_right _ _)
      exact (inside.trans around).cons _

theorem bestAfter_eq (sound : tree.Sound) (found : tree.row? group = some row)
    (skip : Option Nat) :
    tree.bestAfter (group, tree.groupDepth group) (skip.elim row row.eraseIdx) =
        (tree.deepestGroup group skip, tree.groupDepth (tree.deepestGroup group skip)) ∧
      tree.deepestGroup group skip ∈
        (group :: (skip.elim row row.eraseIdx).groups).argmax tree.groupDepth := by
  obtain ⟨layers, rfl, whole, _⟩ := sound.exists_layers found
  have levels : ∀ id level, (skip.elim row row.eraseIdx).Nests id level →
      tree.groupDepth id = layers.length + 1 + level := by
    intro id level nests
    have inside : row.Nests id level := by
      cases skip with
      | none => exact nests
      | some index => exact nests.of_eraseIdx
    rw [sound.groupDepth_of_nests inside .nil whole, Nat.add_right_comm]
  obtain ⟨best, foremost, walked⟩ := exists_foldl_deeper tree.groupDepth
    (skip.elim row row.eraseIdx).groups (Layer.holder layers)
  have same : best = tree.deepestGroup (Layer.holder layers) skip := by
    have named := walked
    rw [Forest.foldl_deeper_groups levels, sound.groupDepth_holder whole] at named
    rw [deepestGroup, found, Option.getD_some]
    cases deepest : (skip.elim row row.eraseIdx).deepest? with
    | none =>
        rw [deepest] at named
        exact (congrArg Prod.fst named).symm
    | some other =>
        have lower : layers.length < layers.length + 1 + other.2 := by omega
        rw [deepest, Option.elim_some, deeper_of_lt lower] at named
        exact (congrArg Prod.fst named).symm
  exact same ▸ ⟨walked, foremost⟩

theorem firstDeepest (sound : tree.Sound) (isGroup : tree.isGroup group = true)
    (skip : Option Nat) : tree.FirstDeepest group skip (tree.deepestGroup group skip) := by
  obtain ⟨row, found⟩ := Option.isSome_iff_exists.mp isGroup
  obtain ⟨_, foremost⟩ := sound.bestAfter_eq found skip
  obtain ⟨member, deepest, first⟩ := List.mem_argmax_iff.mp foremost
  refine ⟨(sound.searched_iff found skip).mpr member, fun id searched => ?_,
    fun id searched level other => ?_⟩
  · exact deepest id ((sound.searched_iff found skip).mp searched)
  · have listed := (sound.searched_iff found skip).mp searched
    have ahead := first id listed (Nat.le_of_eq level.symm)
    have apart := fun same => other ((List.idxOf_inj member).mp same).symm
    have fewer : (skip.elim row row.eraseIdx).groups.Sublist row.groups := by
      cases skip with
      | none => exact .refl _
      | some index => exact row.groups_eraseIdx_sublist index
    have ordered := sublist_of_idxOf_lt (Nat.lt_of_le_of_ne ahead apart) listed
    exact (ordered.trans (fewer.cons_cons group)).trans (sound.groups_sublist_order found)

/-! ## Depth from group to group -/

theorem foldl_depth_heads (sound : tree.Sound) {layers : List Layer} (before : Forest)
    (whole : tree.row = (before ++ row).within layers) {own : Nat} (above : layers.length ≤ own) :
    ((row.heads.filter tree.isGroup).map tree.depth).foldl max own =
      max own (layers.length + row.height) := by
  induction row generalizing before own with
  | nil => exact (Nat.max_eq_left above).symm
  | clause first body rest ih =>
      have noGroup : tree.isGroup first = false := by
        rw [Tree.isGroup, sound.row?_eq_none (sound.clause?_item whole)]
        rfl
      have later := ih (before ++ .clause first body .nil)
        (by rw [Forest.append_assoc]; exact whole) above
      rw [Forest.heads, List.filter_cons_of_neg (by simp [noGroup]), later, Forest.height]
  | group first members rest _ ih =>
      have inside : tree.row = members.within (⟨before, first, rest⟩ :: layers) := whole
      have found : tree.row? first = some members := sound.row?_holder inside
      have isGroup : tree.isGroup first = true := Option.isSome_iff_exists.mpr ⟨members, found⟩
      have deep : tree.depth first = layers.length + 1 + members.height := sound.depth_holder inside
      have later := ih (before ++ .group first members .nil)
        (by rw [Forest.append_assoc]; exact whole)
        (Nat.le_trans above (Nat.le_max_left own (tree.depth first)))
      rw [Forest.heads, List.filter_cons_of_pos isGroup, List.map_cons, List.foldl_cons, later, deep,
        Forest.height]
      omega

theorem depth_eq_foldl (sound : tree.Sound) (group : NodeId) :
    tree.depth group = (((tree.children group).filter tree.isGroup).map tree.depth).foldl max
      (tree.groupDepth group) := by
  cases found : tree.row? group with
  | none =>
      rw [depth, reach, children, found]
      rfl
  | some row =>
      obtain ⟨layers, rfl, whole, _⟩ := sound.exists_layers found
      rw [sound.children_holder whole, sound.groupDepth_holder whole, sound.depth_holder whole,
        sound.foldl_depth_heads .nil whole (Nat.le_refl _)]
      exact (Nat.max_eq_right (Nat.le_add_right _ _)).symm

/-! ## The deepest clauses -/

theorem clauseDepth_of_parent? (sound : tree.Sound) (up : tree.parent? id = some group) :
    tree.clauseDepth id = tree.groupDepth group := by
  have deeper := sound.groupDepth_of_parent? up
  rw [groupDepth] at deeper
  rw [clauseDepth, deeper, Nat.add_sub_cancel]

theorem searched_of_parent? (sound : tree.Sound) (below : tree.Below id group) {parent : NodeId}
    (up : tree.parent? id = some parent) : tree.Searched group none parent := by
  obtain ⟨above, step, beyond⟩ := TransGen.head'_iff.mp below
  cases Option.some.inj (step.symm.trans up)
  rcases reflTransGen_iff_eq_or_transGen.mp beyond with same | further
  · exact .inl same.symm
  · have isGroup := isGroup_of_mem_children (sound.mem_children_iff_parent?.mpr up)
    exact .inr ⟨isGroup, further, fun item skipped => absurd skipped (by simp [skipped?])⟩

/-- No item of the deepest group is a group, and so the clauses in it are as deep as the tree is. -/
theorem isGreatest_clauseDepths (sound : tree.Sound) (inhabited : (tree.clauseDepths group).Nonempty) :
    IsGreatest (tree.clauseDepths group) (tree.depth group) := by
  obtain ⟨_, _, _, _, someBelow, _⟩ := inhabited
  have isGroup := sound.isGroup_of_below someBelow
  have found := sound.firstDeepest isGroup none
  have deep : tree.groupDepth (tree.deepestGroup group none) = tree.depth group :=
    sound.groupDepth_deepestGroup isGroup none
  constructor
  · have occupied : tree.children (tree.deepestGroup group none) ≠ [] := by
      rcases found.searched with same | ⟨inner, below, _⟩
      · obtain ⟨last, _, up⟩ := TransGen.tail'_iff.mp someBelow
        rw [same]
        exact List.ne_nil_of_mem (sound.mem_children_iff_parent?.mpr up)
      · obtain ⟨_, up, _⟩ := TransGen.head'_iff.mp below
        exact sound.children_ne_nil (sound.ne_root_of_parent? up) inner
    obtain ⟨item, member⟩ := List.exists_mem_of_ne_nil _ occupied
    have up := sound.mem_children_iff_parent?.mp member
    have below : tree.Below item group := by
      rcases found.searched with same | ⟨_, above, _⟩
      · exact .single (same ▸ up)
      · exact .head up above
    rcases sound.clause_or_group (sound.mem_ids_of_parent? up) with ⟨body, clause⟩ | ⟨row, there⟩
    · refine ⟨item, body, clause, below, ?_⟩
      rw [sound.clauseDepth_of_parent? up, deep]
    · have noDeeper := found.deepest item
        (.inr ⟨Option.isSome_iff_exists.mpr ⟨row, there⟩, below, fun _ skipped =>
          absurd skipped (by simp [skipped?])⟩)
      rw [sound.groupDepth_of_parent? up] at noDeeper
      exact absurd noDeeper (Nat.not_succ_le_self _)
  · rintro level ⟨id, body, _, below, rfl⟩
    obtain ⟨parent, up, _⟩ := TransGen.head'_iff.mp below
    rw [sound.clauseDepth_of_parent? up, ← deep]
    exact found.deepest parent (sound.searched_of_parent? below up)

end Sound

end Tree

end WhereEditor
