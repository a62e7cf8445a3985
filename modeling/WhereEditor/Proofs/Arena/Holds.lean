import Mathlib.Tactic.Tauto
import WhereEditor.Proofs.Arena.Basic
import WhereEditor.Proofs.Support
import WhereEditor.Proofs.Tree.Ids

/-!
When slots hold a tree: each slot that is filled is the one that the tree has for its node. The
slots of a tree are stated for a row and the layers around it, so that an edit of the row leaves all
slots but those of the row and of its holder.
-/

namespace WhereEditor

namespace Forest

def slots (holder : NodeId) : Forest → List (NodeId × Slot)
  | nil => []
  | clause id body rest => (id, { parent := holder, content := .clause body }) :: rest.slots holder
  | group id members rest =>
      (id, { parent := holder, content := .group members.heads }) ::
        (members.slots id ++ rest.slots holder)

theorem map_fst_slots (row : Forest) (holder : NodeId) :
    (row.slots holder).map Prod.fst = row.ids := by
  induction row generalizing holder with
  | nil => rfl
  | clause id body rest ih => simp [slots, ids, ih]
  | group id members rest inner ih => simp [slots, ids, inner, ih]

@[simp] theorem slots_append (row tail : Forest) (holder : NodeId) :
    (row ++ tail).slots holder = row.slots holder ++ tail.slots holder := by
  induction row with
  | nil => rfl
  | clause id body rest ih => simp [slots, ih]
  | group id members rest _ ih => simp [slots, ih]

theorem mem_ids_of_mem_slots {row : Forest} {holder id : NodeId} {slot : Slot}
    (member : (id, slot) ∈ row.slots holder) : id ∈ row.ids := by
  rw [← map_fst_slots row holder]
  exact List.mem_map_of_mem member

theorem exists_slot_of_mem_ids {row : Forest} {id : NodeId} (holder : NodeId)
    (member : id ∈ row.ids) : ∃ slot, (id, slot) ∈ row.slots holder := by
  rw [← map_fst_slots row holder] at member
  obtain ⟨⟨_, slot⟩, found, rfl⟩ := List.mem_map.mp member
  exact ⟨slot, found⟩

theorem mem_slots_of_mem_slots {row : Forest} (distinct : row.ids.Nodup) (holder : NodeId)
    {other id : NodeId} {slot : Slot} (entry : (id, slot) ∈ row.slots other) :
    ∃ old, (id, old) ∈ row.slots holder ∧ slot = if id ∈ row.heads then old.hang other else old := by
  induction row with
  | nil => exact absurd entry List.not_mem_nil
  | clause head body rest ih =>
      obtain ⟨outside, restDistinct⟩ := List.nodup_cons.mp distinct
      rcases List.mem_cons.mp entry with here | later
      · cases here
        exact ⟨_, List.mem_cons_self, by simp [heads, Slot.hang]⟩
      · obtain ⟨old, found, same⟩ := ih restDistinct later
        have different : id ≠ head := fun same => outside (same ▸ mem_ids_of_mem_slots later)
        exact ⟨old, List.mem_cons_of_mem _ found, by simpa [heads, different] using same⟩
  | group head members rest _ ih =>
      obtain ⟨inside, outside, _, restDistinct, apart⟩ := nodup_ids_group distinct
      rcases List.mem_cons.mp entry with here | deeper
      · cases here
        exact ⟨_, List.mem_cons_self, by simp [heads, Slot.hang]⟩
      · rcases List.mem_append.mp deeper with below | later
        · have member := mem_ids_of_mem_slots below
          have different : id ≠ head := fun same => inside (same ▸ member)
          have notHead : id ∉ rest.heads := fun there =>
            apart id member (rest.heads_sublist_ids.subset there)
          exact ⟨slot, List.mem_cons_of_mem _ (List.mem_append_left _ below),
            by simp [heads, different, notHead]⟩
        · obtain ⟨old, found, same⟩ := ih restDistinct later
          have different : id ≠ head := fun same => outside (same ▸ mem_ids_of_mem_slots later)
          exact ⟨old, List.mem_cons_of_mem _ (List.mem_append_right _ found),
            by simpa [heads, different] using same⟩

end Forest

namespace Layer

def up : List Layer → Option NodeId
  | [] => none
  | _ :: outer => some (holder outer)

@[simp] theorem holder_cons (layer : Layer) (outer : List Layer) :
    holder (layer :: outer) = layer.id := rfl

@[simp] theorem up_cons (layer : Layer) (outer : List Layer) :
    up (layer :: outer) = some (holder outer) := rfl

def here (layers : List Layer) (items : List NodeId) : NodeId × Slot :=
  (holder layers, { parent := up layers, content := .group items })

def beyond : List Layer → List (NodeId × Slot)
  | [] => []
  | layer :: outer =>
      layer.left.slots (holder outer) ++ (layer.right.slots (holder outer) ++
        (here outer (layer.left.heads ++ layer.id :: layer.right.heads) :: beyond outer))

theorem map_fst_beyond (layers : List Layer) :
    (holder layers :: (beyond layers).map Prod.fst).Perm (NodeId.root :: ids layers) := by
  induction layers with
  | nil => exact List.Perm.refl _
  | cons layer outer ih =>
      have around := List.perm_iff_count.mp ih
      refine List.perm_iff_count.mpr fun id => ?_
      have same := around id
      simp only [beyond, here, ids, List.map_append, List.map_cons, Forest.map_fst_slots,
        List.count_cons, List.count_append, holder_cons] at same ⊢
      omega

end Layer

def Forest.Apart (row : Forest) (layers : List Layer) : Prop :=
  (row.ids ++ Layer.holder layers :: (Layer.beyond layers).map Prod.fst).Nodup

namespace Forest

variable {row : Forest} {layers : List Layer}

theorem apart_iff : row.Apart layers ↔ (NodeId.root :: (row.within layers).ids).Nodup := by
  refine List.Perm.nodup_iff (((Layer.map_fst_beyond layers).append_left row.ids).trans ?_)
  exact List.perm_middle.trans ((row.ids_within_perm layers).symm.cons NodeId.root)

theorem apart_within {layer : Layer} {outer : List Layer} :
    (layer.left ++ group layer.id row layer.right).Apart outer ↔ row.Apart (layer :: outer) := by
  rw [apart_iff, apart_iff, within]

namespace Apart

theorem ids_nodup (apart : row.Apart layers) : row.ids.Nodup := (List.nodup_append.mp apart).1

theorem ne_holder (apart : row.Apart layers) {id : NodeId} (member : id ∈ row.ids) :
    id ≠ Layer.holder layers :=
  (List.nodup_append.mp apart).2.2 id member _ List.mem_cons_self

theorem not_mem_beyond (apart : row.Apart layers) {id : NodeId} (member : id ∈ row.ids)
    (slot : Slot) : (id, slot) ∉ Layer.beyond layers := by
  intro around
  have there : id ∈ (Layer.beyond layers).map Prod.fst := List.mem_map_of_mem around
  exact (List.nodup_append.mp apart).2.2 id member id (List.mem_cons_of_mem _ there) rfl

theorem holder_not_mem_beyond (apart : row.Apart layers) (slot : Slot) :
    (Layer.holder layers, slot) ∉ Layer.beyond layers := by
  intro around
  have there : Layer.holder layers ∈ (Layer.beyond layers).map Prod.fst :=
    List.mem_map_of_mem around
  exact (List.nodup_cons.mp (List.nodup_append.mp apart).2.1).1 there

theorem ne_root {layer : Layer} {outer : List Layer} (apart : row.Apart (layer :: outer)) :
    layer.id ≠ NodeId.root := by
  intro same
  have member : layer.id ∈ (row.within (layer :: outer)).ids :=
    (ids_within_perm row (layer :: outer)).symm.subset (by simp [Layer.ids])
  exact (List.nodup_cons.mp (apart_iff.mp apart)).1 (same ▸ member)

theorem of_sublist (apart : row.Apart layers) {fewer : Forest}
    (sublist : fewer.ids.Sublist row.ids) : fewer.Apart layers :=
  List.Nodup.sublist (sublist.append_right _) apart

end Apart

end Forest

namespace Arena

/-- The slots are those of a row, of its holder and of all around them. -/
def Holds (arena : Arena) (row : Forest) (layers : List Layer) : Prop :=
  ∀ id slot, arena.slot? id = some slot ↔
    (id, slot) = Layer.here layers row.heads ∨ (id, slot) ∈ Layer.beyond layers ∨
      (id, slot) ∈ row.slots (Layer.holder layers)

theorem holds_within {arena : Arena} {row : Forest} {layer : Layer} {outer : List Layer} :
    arena.Holds (layer.left ++ .group layer.id row layer.right) outer ↔
      arena.Holds row (layer :: outer) := by
  refine forall_congr' fun id => forall_congr' fun slot => iff_congr Iff.rfl ?_
  simp only [Layer.here, Layer.beyond, Layer.holder_cons, Layer.up_cons, Forest.slots_append,
    Forest.slots, Forest.heads_append, Forest.heads, List.mem_append, List.mem_cons]
  tauto

theorem holds_root_iff {arena : Arena} {row : Forest} {layers : List Layer} :
    arena.Holds row layers ↔ arena.Holds (row.within layers) [] := by
  induction layers generalizing row with
  | nil => rfl
  | cons layer outer ih => rw [← holds_within, ih, Forest.within]

namespace Holds

variable {arena : Arena} {row : Forest} {layers : List Layer}

theorem slot?_holder (holds : arena.Holds row layers) :
    arena.slot? (Layer.holder layers) = some (Layer.here layers row.heads).2 :=
  (holds _ _).mpr (.inl rfl)

theorem slot?_of_mem (holds : arena.Holds row layers) {id : NodeId} {slot : Slot}
    (member : (id, slot) ∈ row.slots (Layer.holder layers)) : arena.slot? id = some slot :=
  (holds _ _).mpr (.inr (.inr member))

theorem slot?_eq_none (holds : arena.Holds row []) {id : NodeId} (inner : id ≠ NodeId.root)
    (absent : id ∉ row.ids) : arena.slot? id = none := by
  refine Option.eq_none_iff_forall_ne_some.mpr fun slot filled => ?_
  rcases (holds id slot).mp filled with same | around | member
  · exact inner (congrArg Prod.fst same)
  · exact absurd around List.not_mem_nil
  · exact absent (Forest.mem_ids_of_mem_slots member)

theorem children_holder (holds : arena.Holds row layers) :
    arena.children (Layer.holder layers) = row.heads :=
  children_of_slot? holds.slot?_holder

theorem isGroup_holder (holds : arena.Holds row layers) :
    arena.isGroup (Layer.holder layers) = true :=
  isGroup_of_slot? holds.slot?_holder

theorem lt_next_of_mem_ids (holds : arena.Holds row layers) {id : NodeId} (member : id ∈ row.ids) :
    id < arena.next := by
  obtain ⟨slot, filled⟩ := Forest.exists_slot_of_mem_ids (Layer.holder layers) member
  exact lt_next_of_slot? (holds.slot?_of_mem filled)

theorem apart_of_perm (holds : arena.Holds row layers) (apart : row.Apart layers) {changed : Forest}
    (more : changed.ids.Perm (arena.next :: row.ids)) : changed.Apart layers := by
  refine (more.append_right _).nodup_iff.mpr (List.nodup_cons.mpr ⟨?_, apart⟩)
  intro present
  rcases List.mem_append.mp present with inside | around
  · exact Nat.lt_irrefl _ (holds.lt_next_of_mem_ids inside)
  · rcases List.mem_cons.mp around with same | further
    · exact Nat.lt_irrefl _ (same ▸ lt_next_of_slot? holds.slot?_holder)
    · obtain ⟨⟨id, slot⟩, entry, same⟩ := List.mem_map.mp further
      have filled : arena.slot? id = some slot := (holds id slot).mpr (.inr (.inl entry))
      exact Nat.lt_irrefl _ (same ▸ lt_next_of_slot? filled)

/-- An edit of a row that leaves all around it: it fills the slots of the row that is left, and
empties those of the nodes that are gone. -/
theorem edit (holds : arena.Holds row layers) {edited : Arena} {changed : Forest}
    (apart : row.Apart layers) (stillApart : changed.Apart layers)
    (atHolder : edited.slot? (Layer.holder layers) = some (Layer.here layers changed.heads).2)
    (filled : ∀ id slot, (id, slot) ∈ changed.slots (Layer.holder layers) →
      edited.slot? id = some slot)
    (emptied : ∀ id ∈ row.ids, id ∉ changed.ids → edited.slot? id = none)
    (outside : ∀ id, id ≠ Layer.holder layers → id ∉ row.ids → id ∉ changed.ids →
      edited.slot? id = arena.slot? id) : edited.Holds changed layers := by
  intro id slot
  by_cases atTop : id = Layer.holder layers
  · subst atTop
    have notChanged : (Layer.holder layers, slot) ∉ changed.slots (Layer.holder layers) :=
      fun member => stillApart.ne_holder (Forest.mem_ids_of_mem_slots member) rfl
    rw [atHolder]
    simp [apart.holder_not_mem_beyond slot, notChanged, Layer.here, eq_comm]
  · have notHere : ∀ items, (id, slot) ≠ Layer.here layers items := fun items same =>
      atTop (congrArg Prod.fst same)
    by_cases present : id ∈ changed.ids
    · obtain ⟨new, entry⟩ := Forest.exists_slot_of_mem_ids (Layer.holder layers) present
      have notAround := stillApart.not_mem_beyond present slot
      simp only [notHere, notAround, false_or]
      refine ⟨fun found => ?_, filled id slot⟩
      rw [filled id new entry] at found
      exact Option.some.inj found ▸ entry
    · have notNew : (id, slot) ∉ changed.slots (Layer.holder layers) := fun member =>
        present (Forest.mem_ids_of_mem_slots member)
      by_cases old : id ∈ row.ids
      · have notAround := apart.not_mem_beyond old slot
        simp [emptied id old present, notHere, notAround, notNew]
      · have notOld : (id, slot) ∉ row.slots (Layer.holder layers) := fun member =>
          old (Forest.mem_ids_of_mem_slots member)
        rw [outside id atTop old present, holds id slot]
        simp only [notHere, notOld, notNew, false_or, or_false]

/-! ## A node in its row -/

section Item

variable {left item right : Forest} {target : NodeId}

theorem parent?_item (holds : arena.Holds (left ++ (item ++ right)) layers)
    (isItem : Forest.Item target item) : arena.parent? target = some (Layer.holder layers) := by
  have filled : ∃ content, (target, Slot.mk (some (Layer.holder layers)) content) ∈
        (left ++ (item ++ right)).slots (Layer.holder layers) := by
    cases isItem with
    | clause body => exact ⟨.clause body, by simp [Forest.slots]⟩
    | group members => exact ⟨.group members.heads, by simp [Forest.slots]⟩
  obtain ⟨content, entry⟩ := filled
  rw [parent?, holds.slot?_of_mem entry]
  rfl

theorem place?_item (holds : arena.Holds (left ++ (item ++ right)) layers)
    (apart : (left ++ (item ++ right)).Apart layers) (isItem : Forest.Item target item) :
    arena.place? target = some (Layer.holder layers, left.width) := by
  have heads : (left ++ (item ++ right)).heads = left.heads ++ target :: right.heads := by
    simp [isItem.heads]
  have absent : target ∉ left.heads := fun there =>
    (Forest.not_mem_of_item apart.ids_nodup isItem).1 (left.heads_sublist_ids.subset there)
  rw [place?, holds.parent?_item isItem]
  simp [holds.children_holder, heads, idxOf?_append_cons absent, Forest.width]

end Item

end Holds

end Arena

end WhereEditor
