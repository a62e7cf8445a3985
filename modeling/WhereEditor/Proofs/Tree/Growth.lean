import WhereEditor.Proofs.Tree.Identity
import WhereEditor.Proofs.Tree.Rows
import WhereEditor.Proofs.Tree.Descent

/-!
A new clause in one row of a tree. Main statement: in every tree that edits lead to, a clause that is
inserted before or after a node stands next to it in its row, and next to all that is below it in the
order of the clauses; where there is no such node, it comes last in its group; and nothing else
changes.
-/

namespace WhereEditor

namespace Forest

theorem Item.insertBefore {id : NodeId} {item : Forest} (isItem : Item id item) (fresh : NodeId)
    (body : Clause) : item.insertBefore id fresh body = .clause fresh body nil ++ item := by
  cases isItem <;> exact if_pos rfl

theorem Item.insertAfter {id : NodeId} {item : Forest} (isItem : Item id item) (fresh : NodeId)
    (body : Clause) : item.insertAfter id fresh body = item ++ .clause fresh body nil := by
  cases isItem <;> exact if_pos rfl

end Forest

namespace Tree

variable {tree grown : Tree} {body : Clause} {id holder : NodeId}

/-- There is one more node, between `before` and `beyond` in the row of `holder`. All other rows and
parents are as they were. -/
structure Grows (tree : Tree) (fresh holder : NodeId) (before beyond : List NodeId)
    (grown : Tree) : Prop where
  new : tree.contains fresh = false
  contains : ∀ node, grown.contains node = true ↔ tree.contains node = true ∨ node = fresh
  row : tree.children holder = before ++ beyond ∧
    grown.children holder = before ++ fresh :: beyond
  groups : ∀ group, grown.isGroup group = tree.isGroup group ∧
    (group ≠ holder → grown.children group = tree.children group)
  parent : grown.parent? fresh = some holder
  parents : ∀ node, node ≠ fresh → grown.parent? node = tree.parent? node

/-- The new node is a clause with the next id, between `earlier` and `later` in the order of the
clauses. -/
structure Gains (tree : Tree) (body : Clause) (holder : NodeId) (before beyond : List NodeId)
    (earlier later : List (NodeId × Clause)) (grown : Tree) : Prop
    extends tree.Grows tree.next holder before beyond grown where
  order : tree.clauses = earlier ++ later ∧ grown.clauses = earlier ++ (tree.next, body) :: later

/-- These clauses of the tree are the node, if it is a clause, and all those below it. -/
def Covers (tree : Tree) (id : NodeId) (stretch : List (NodeId × Clause)) : Prop :=
  ∀ entry ∈ tree.clauses, entry ∈ stretch ↔ entry.1 = id ∨ tree.Below entry.1 id

/-- The new clause is the item before a node, and comes directly before all clauses that it covers. -/
def GainsBefore (tree : Tree) (body : Clause) (id : NodeId) (grown : Tree) : Prop :=
  ∃ holder before beyond earlier stretch later, tree.parent? id = some holder ∧
    tree.Covers id stretch ∧ stretch ≠ [] ∧
    tree.Gains body holder before (id :: beyond) earlier (stretch ++ later) grown

def GainsAfter (tree : Tree) (body : Clause) (id : NodeId) (grown : Tree) : Prop :=
  ∃ holder before beyond earlier stretch later, tree.parent? id = some holder ∧
    tree.Covers id stretch ∧ stretch ≠ [] ∧
    tree.Gains body holder (before ++ [id]) beyond (earlier ++ stretch) later grown

/-- The new clause is the last item of a group, and comes directly after all other clauses below it. -/
def GainsLast (tree : Tree) (body : Clause) (holder : NodeId) (grown : Tree) : Prop :=
  ∃ earlier stretch later, tree.Covers holder stretch ∧
    tree.Gains body holder (tree.children holder) [] (earlier ++ stretch) later grown

namespace Sound

/-! ## One row that grows -/

section Row

variable {left right : Forest} {layers : List Layer} (sound : tree.Sound) (kept : grown.Sound)
  (whole : tree.row = (left ++ right).within layers)
  (after : grown.row = (left ++ (.clause tree.next body .nil ++ right)).within layers)

include sound kept whole after

theorem isGroup_of_gain (group : NodeId) : grown.isGroup group = tree.isGroup group ∧
    (group ≠ Layer.holder layers → grown.children group = tree.children group) := by
  by_cases same : group = Layer.holder layers
  · subst same
    refine ⟨?_, fun other => absurd rfl other⟩
    rw [isGroup, isGroup, sound.row?_holder whole, kept.row?_holder after]
    rfl
  · suffices elsewhere : grown.isGroup group = tree.isGroup group ∧
        grown.children group = tree.children group from ⟨elsewhere.1, fun _ => elsewhere.2⟩
    refine isGroup_eq_of_within whole after ?_
    rw [Forest.rowIn?, Forest.rowIn?, if_neg same, if_neg same]
    simp [Forest.members?_append, Forest.members?]

theorem children_of_gain :
    tree.children (Layer.holder layers) = left.heads ++ right.heads ∧
      grown.children (Layer.holder layers) = left.heads ++ tree.next :: right.heads := by
  rw [sound.children_holder whole, kept.children_holder after]
  simp [Forest.heads]

theorem parent?_of_gain {node : NodeId} (old : node ≠ tree.next) :
    grown.parent? node = tree.parent? node := by
  refine sound.parent?_eq_of_mem_children_iff kept fun group => ?_
  by_cases same : group = Layer.holder layers
  · obtain ⟨items, newItems⟩ := sound.children_of_gain kept whole after
    rw [same, items, newItems]
    simp [old]
  · rw [(sound.isGroup_of_gain kept whole after group).2 same]

/-- What surrounds the new clause does not depend on where its row is cut. -/
theorem exists_gains :
    ∃ before beyond,
      tree.Gains body (Layer.holder layers) left.heads right.heads (before ++ left.clauses)
        (right.clauses ++ beyond) grown := by
  obtain ⟨before, beyond, _, around⟩ := Forest.exists_clauses_within layers
  have order : tree.clauses = before ++ (left.clauses ++ (right.clauses ++ beyond)) := by
    rw [clauses, whole, around, Forest.clauses_append, List.append_assoc]
  have more : grown.row.ids.Perm (tree.next :: tree.row.ids) := by
    rw [whole, after]
    refine ((Forest.ids_within_perm _ layers).trans ?_).trans
      ((Forest.ids_within_perm _ layers).symm.cons tree.next)
    simp [Forest.ids]
  refine ⟨before, beyond, ⟨sound.contains_next, contains_iff_of_perm more,
    sound.children_of_gain kept whole after, sound.isGroup_of_gain kept whole after,
    kept.parent?_item after (.clause body),
    fun node old => sound.parent?_of_gain kept whole after old⟩, ?_, ?_⟩
  · rw [order, List.append_assoc]
  · rw [clauses, after, around]
    simp [Forest.clauses]

end Row

/-! ## The clauses at a node -/

theorem covers_group (sound : tree.Sound) (isGroup : tree.isGroup id = true) :
    tree.Covers id (tree.clausesBelow id) := by
  intro entry there
  have notItself : entry.1 ≠ id := fun same => absurd
    ((sound.clause?_eq_some_iff.mpr there).symm.trans (sound.clause?_eq_none (same ▸ isGroup)))
    (by simp)
  rw [sound.mem_clausesBelow_iff]
  constructor
  · exact fun below => .inr below.2
  · exact fun at_ => ⟨there, at_.resolve_left notItself⟩

theorem covers_item {left item right : Forest} {layers : List Layer} (sound : tree.Sound)
    (whole : tree.row = (left ++ (item ++ right)).within layers) (isItem : Forest.Item id item) :
    tree.Covers id item.clauses ∧ item.clauses ≠ [] := by
  cases isItem with
  | clause here =>
      have clause := sound.clause?_item whole
      have held : (id, here) ∈ tree.clauses := sound.clause?_eq_some_iff.mp clause
      refine ⟨fun entry there => ?_, List.cons_ne_nil _ _⟩
      constructor
      · exact fun member => .inl (congrArg Prod.fst (List.mem_singleton.mp member))
      · intro at_
        have same := at_.resolve_right (sound.not_below_clause clause entry.1)
        exact List.mem_singleton.mpr (Forest.eq_of_mem_clauses sound.distinct there held same)
  | group members =>
      have inside : tree.row = members.within (⟨left, id, right⟩ :: layers) := whole
      have found : tree.row? id = some members := sound.row?_holder inside
      have isGroup : tree.isGroup id = true := Option.isSome_iff_exists.mpr ⟨members, found⟩
      have below : tree.clausesBelow id = members.clauses := by
        rw [clausesBelow, found, Option.getD_some]
      have inner : id ≠ NodeId.root :=
        sound.ne_root_of_parent? (sound.parent?_item whole (.group members))
      have wide := sound.le_length_children inner isGroup
      rw [children, found, Option.getD_some] at wide
      rw [Forest.clauses, Forest.clauses, List.append_nil]
      exact ⟨below ▸ sound.covers_group isGroup,
        Forest.clauses_ne_nil (sound.atLeast_row? found) wide⟩

/-! ## Before and after a node -/

section Item

variable {left item right : Forest} {layers : List Layer} (sound : tree.Sound)
  (whole : tree.row = (left ++ (item ++ right)).within layers) (isItem : Forest.Item id item)
  (body : Clause)

include whole isItem

theorem mem_ids_item : id ∈ tree.row.ids := by
  rw [whole, ((left ++ (item ++ right)).ids_within_perm layers).mem_iff]
  simp [isItem.mem_ids]

include sound

theorem row_insertBefore (group : NodeId) : (tree.insertBefore group (some id) body).row =
    (left ++ (.clause tree.next body .nil ++ (item ++ right))).within layers := by
  have member := mem_ids_item whole isItem
  have distinct := whole ▸ sound.distinct
  have found : (some id).filter tree.row.ids.contains = some id := by simp [member]
  rw [Tree.insertBefore, found]
  refine (congrArg _ whole).trans ?_
  rw [(Forest.actsAt_insertBefore id tree.next body).cut distinct isItem, isItem.insertBefore,
    Forest.append_assoc]

theorem row_insertAfter : (tree.insertAfter id body).row =
    (left ++ (item ++ (.clause tree.next body .nil ++ right))).within layers := by
  have member := mem_ids_item whole isItem
  have distinct := whole ▸ sound.distinct
  rw [Tree.insertAfter, if_pos member]
  refine (congrArg _ whole).trans ?_
  rw [(Forest.actsAt_insertAfter id tree.next body).cut distinct isItem, isItem.insertAfter,
    Forest.append_assoc]

end Item

theorem gainsBefore_insertBefore (sound : tree.Sound) (member : id ∈ tree.row.ids)
    (group : NodeId) (body : Clause) :
    tree.GainsBefore body id (tree.insertBefore group (some id) body) := by
  obtain ⟨left, item, right, layers, whole, isItem⟩ := Forest.exists_cut member
  have after := sound.row_insertBefore whole isItem body group
  obtain ⟨covers, inhabited⟩ := sound.covers_item whole isItem
  obtain ⟨before, beyond, gains⟩ :=
    sound.exists_gains (sound.insertBefore group (some id) body) whole after
  rw [Forest.heads_append, isItem.heads, Forest.clauses_append, List.append_assoc] at gains
  exact ⟨_, _, _, _, _, _, sound.parent?_item whole isItem, covers, inhabited, gains⟩

theorem gainsAfter_insertAfter (sound : tree.Sound) (member : id ∈ tree.row.ids)
    (body : Clause) : tree.GainsAfter body id (tree.insertAfter id body) := by
  obtain ⟨left, item, right, layers, whole, isItem⟩ := Forest.exists_cut member
  have after := sound.row_insertAfter whole isItem body
  obtain ⟨covers, inhabited⟩ := sound.covers_item whole isItem
  have parent := sound.parent?_item whole isItem
  rw [← Forest.append_assoc] at whole after
  obtain ⟨before, beyond, gains⟩ := sound.exists_gains (sound.insertAfter id body) whole after
  rw [Forest.heads_append, isItem.heads, Forest.clauses_append, ← List.append_assoc] at gains
  exact ⟨_, _, _, _, _, _, parent, covers, inhabited, gains⟩

/-! ## At the end of a group -/

theorem gainsLast_append (sound : tree.Sound) (group : NodeId) (body : Clause) :
    tree.GainsLast body (if tree.isGroup group then group else NodeId.root)
      (tree.append group body) := by
  obtain ⟨row, found⟩ := tree.exists_row?_holder group
  have kept : (tree.append group body).Sound := sound.append group body
  rw [Tree.append] at kept ⊢
  generalize (if tree.isGroup group then group else NodeId.root) = holder at found kept ⊢
  have covers := sound.covers_group (Option.isSome_iff_exists.mpr ⟨row, found⟩)
  obtain ⟨layers, rfl, whole, edited⟩ := sound.exists_layers found
  have after := edited (· ++ .clause tree.next body .nil)
  rw [clausesBelow, found, Option.getD_some] at covers
  rw [← row.append_nil] at whole
  rw [← (Forest.clause tree.next body .nil).append_nil] at after
  obtain ⟨before, beyond, gains⟩ := sound.exists_gains kept whole after
  have items : tree.children (Layer.holder layers) = row.heads := by
    rw [children, found, Option.getD_some]
  rw [GainsLast, items]
  exact ⟨before, row.clauses, beyond, covers, gains⟩

end Sound

/-! ## Every tree -/

theorem insertBefore_eq_append (tree : Tree) (group : NodeId) {anchor : Option NodeId}
    (missing : ∀ id ∈ anchor, id ∉ tree.row.ids) (body : Clause) :
    tree.insertBefore group anchor body = tree.append group body := by
  have nowhere : anchor.filter tree.row.ids.contains = none := by
    refine Option.filter_eq_none_iff.mpr fun id here => ?_
    simpa using missing id here
  rw [Tree.insertBefore, nowhere]

theorem not_mem_ids_iff (sound : tree.Sound) :
    id ∉ tree.row.ids ↔ id = NodeId.root ∨ tree.contains id = false := by
  rw [← Bool.not_eq_true, contains_iff, not_or]
  constructor
  · intro absent
    exact (eq_or_ne id NodeId.root).imp_right fun inner => ⟨inner, absent⟩
  · rintro (rfl | missing)
    · exact sound.root_not_mem
    · exact missing.2

/-- In every tree that edits lead to, a clause that is inserted before or after a node, be it a clause
or a group, stands directly before or after it in its row, and before or after all that is below it in
the order of the clauses. Where there is no node, it is the last item of the group that is named, or
of the root. The slots show what the tree does. -/
theorem insertion_after (edits : List Edit) (body : Clause) :
    let tree := after edits
    let slots := Arena.after edits
    (∀ group id, tree.contains id = true → id ≠ NodeId.root →
      tree.GainsBefore body id (tree.insertBefore group (some id) body)) ∧
    (∀ id, tree.contains id = true → id ≠ NodeId.root →
      tree.GainsAfter body id (tree.insertAfter id body)) ∧
    (∀ group (anchor : Option NodeId),
      (∀ id ∈ anchor, id = NodeId.root ∨ tree.contains id = false) →
      tree.GainsLast body (if tree.isGroup group then group else NodeId.root)
        (tree.insertBefore group anchor body)) ∧
    (∀ id, id = NodeId.root ∨ tree.contains id = false →
      tree.GainsLast body NodeId.root (tree.insertAfter id body)) ∧
    (∀ group anchor, (slots.insertBefore group anchor body).view =
      (tree.insertBefore group anchor body).view) ∧
    ∀ id, (slots.insertAfter id body).view = (tree.insertAfter id body).view := by
  intro tree slots
  have sound : tree.Sound := sound_after edits
  have represents : slots.Represents tree := represents_after edits
  refine ⟨?_, ?_, ?_, ?_, ?_, ?_⟩
  · intro group id live inner
    exact sound.gainsBefore_insertBefore ((contains_iff.mp live).resolve_left inner) group body
  · intro id live inner
    exact sound.gainsAfter_insertAfter ((contains_iff.mp live).resolve_left inner) body
  · intro group anchor missing
    rw [insertBefore_eq_append tree group fun id here =>
      (not_mem_ids_iff sound).mpr (missing id here)]
    exact sound.gainsLast_append group body
  · intro id missing
    rw [Tree.insertAfter, if_neg ((not_mem_ids_iff sound).mpr missing)]
    exact sound.gainsLast_append NodeId.root body
  · intro group anchor
    exact (represents.insertBefore sound group anchor body).view_eq
      (sound.insertBefore group anchor body)
  · intro id
    exact (represents.insertAfter sound id body).view_eq (sound.insertAfter id body)

/-- A group between two clauses, with a clause before it, after it and inside it, and one for an id
that has not been given out. -/
theorem insertion_after_subgroup :
    let edits : List Edit := [.fresh, .fresh, .fresh, .fresh, .mark 2, .mark 3,
      .group NodeId.root]
    let tree := after edits
    let body := Clause.blank .tables
    let ids := fun tree : Tree => tree.clauses.map Prod.fst
    tree.contains 5 = true ∧ 5 ≠ NodeId.root ∧ tree.contains 9 = false ∧ ids tree = [1, 2, 3, 4] ∧
      tree.GainsBefore body 5 (tree.insertBefore 9 (some 5) body) ∧
      ids (tree.insertBefore 9 (some 5) body) = [1, 6, 2, 3, 4] ∧
      tree.GainsAfter body 5 (tree.insertAfter 5 body) ∧
      ids (tree.insertAfter 5 body) = [1, 2, 3, 6, 4] ∧
      tree.GainsLast body 5 (tree.insertBefore 5 (some 9) body) ∧
      (tree.insertBefore 5 (some 9) body).children 5 = [2, 3, 6] ∧
      tree.GainsLast body NodeId.root (tree.insertAfter 9 body) ∧
      ids (tree.insertAfter 9 body) = [1, 2, 3, 4, 6] := by
  intro edits tree body ids
  obtain ⟨before, afterwards, last, atRoot, _, _⟩ := insertion_after edits body
  have live : tree.contains 5 = true := by decide +kernel
  have missing : tree.contains 9 = false := by decide +kernel
  have isGroup : (if tree.isGroup 5 then 5 else NodeId.root) = 5 := by decide +kernel
  have stale : ∀ id ∈ some 9, id = NodeId.root ∨ tree.contains id = false := by
    rintro id ⟨⟩
    exact .inr missing
  have inside := last 5 (some 9) stale
  rw [isGroup] at inside
  exact ⟨live, by decide, missing, by decide +kernel, before 9 5 live (by decide),
    by decide +kernel, afterwards 5 live (by decide), by decide +kernel, inside, by decide +kernel,
    atRoot 9 (.inr missing), by decide +kernel⟩

end Tree

end WhereEditor
