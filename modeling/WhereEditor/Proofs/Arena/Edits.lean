import WhereEditor.Proofs.Arena.Holds

/-!
What the edits of slots do to a row that is held, one edit at a time: the slots hold the edited row,
with the same layers around it.
-/

namespace WhereEditor

namespace Arena

/-! ## Walks over the items of a row -/

theorem slot?_foldl_hang_of_not_mem {row : Forest} {id : NodeId} (arena : Arena) (parent : NodeId)
    (absent : id ∉ row.ids) :
    (row.heads.foldl (hang · parent) arena).slot? id = arena.slot? id := by
  rw [slot?_foldl_hang, if_neg fun there => absent (row.heads_sublist_ids.subset there)]

theorem slot?_foldl_hang_of_mem_slots {row : Forest} {arena : Arena} (holder : NodeId)
    {parent id : NodeId} {slot : Slot} (distinct : row.ids.Nodup)
    (filled : ∀ id slot, (id, slot) ∈ row.slots holder → arena.slot? id = some slot)
    (entry : (id, slot) ∈ row.slots parent) :
    (row.heads.foldl (hang · parent) arena).slot? id = some slot := by
  obtain ⟨old, found, same⟩ := Forest.mem_slots_of_mem_slots distinct holder entry
  rw [slot?_foldl_hang, filled id old found, same]
  split <;> rfl

theorem slot?_foldl_dispose {row : Forest} (holder : NodeId) {depth : Nat} (arena : Arena)
    (distinct : row.ids.Nodup) (deep : row.height < depth)
    (filled : ∀ id slot, (id, slot) ∈ row.slots holder → arena.slot? id = some slot)
    (target : NodeId) :
    (row.heads.foldl (dispose depth) arena).slot? target =
      if target ∈ row.ids then none else arena.slot? target := by
  induction row generalizing holder depth arena target with
  | nil => rfl
  | clause id body rest ih =>
      obtain ⟨outside, restDistinct⟩ := List.nodup_cons.mp distinct
      obtain ⟨depth, rfl⟩ := Nat.exists_eq_succ_of_ne_zero (Nat.ne_zero_of_lt deep)
      have here : dispose (depth + 1) arena id = arena.vacate id := by
        rw [dispose, filled id _ List.mem_cons_self]
        rfl
      have still : ∀ other slot, (other, slot) ∈ rest.slots holder →
          (arena.vacate id).slot? other = some slot := by
        intro other slot entry
        have different : other ≠ id := fun same =>
          outside (same ▸ Forest.mem_ids_of_mem_slots entry)
        rw [slot?_vacate, if_neg different]
        exact filled other slot (List.mem_cons_of_mem _ entry)
      rw [Forest.heads, List.foldl_cons, here, ih holder _ restDistinct deep still, slot?_vacate]
      by_cases same : target = id
      · simp [same, Forest.ids]
      · simp [same, Forest.ids]
  | group id members rest inner ih =>
      obtain ⟨inside, outside, membersDistinct, restDistinct, apart⟩ :=
        Forest.nodup_ids_group distinct
      obtain ⟨depth, rfl⟩ := Nat.exists_eq_succ_of_ne_zero (Nat.ne_zero_of_lt deep)
      rw [Forest.height] at deep
      have here : dispose (depth + 1) arena id =
          members.heads.foldl (dispose depth) (arena.vacate id) := by
        rw [dispose, filled id _ List.mem_cons_self]
        rfl
      have below : ∀ other slot, (other, slot) ∈ members.slots id →
          (arena.vacate id).slot? other = some slot := by
        intro other slot entry
        have different : other ≠ id := fun same => inside (same ▸ Forest.mem_ids_of_mem_slots entry)
        rw [slot?_vacate, if_neg different]
        exact filled other slot (List.mem_cons_of_mem _ (List.mem_append_left _ entry))
      have emptied := fun target =>
        inner id _ membersDistinct (by omega : members.height < depth) below target
      have still : ∀ other slot, (other, slot) ∈ rest.slots holder →
          (dispose (depth + 1) arena id).slot? other = some slot := by
        intro other slot entry
        have member := Forest.mem_ids_of_mem_slots entry
        have different : other ≠ id := fun same => outside (same ▸ member)
        rw [here, emptied, if_neg fun there => apart other there member, slot?_vacate,
          if_neg different]
        exact filled other slot (List.mem_cons_of_mem _ (List.mem_append_right _ entry))
      rw [Forest.heads, List.foldl_cons, ih holder _ restDistinct (by omega) still, here, emptied,
        slot?_vacate]
      by_cases same : target = id
      · simp [same, Forest.ids]
      · by_cases member : target ∈ members.ids
        · simp [member, Forest.ids]
        · simp [same, member, Forest.ids]

theorem slots_unselect (row : Forest) (holder : NodeId) :
    row.unselect.slots holder = (row.slots holder).map fun entry => (entry.1, entry.2.unmark) := by
  induction row generalizing holder with
  | nil => rfl
  | clause id body rest ih => simp [Forest.unselect, Forest.slots, ih, Slot.unmark, Slot.editClause]
  | group id members rest inner ih =>
      simp [Forest.unselect, Forest.slots, inner, ih, Slot.unmark, Slot.editClause]

theorem slot?_foldl_unselect {row : Forest} (holder : NodeId) {depth : Nat} (arena : Arena)
    (distinct : row.ids.Nodup) (deep : row.height ≤ depth)
    (filled : ∀ id slot, (id, slot) ∈ row.slots holder → arena.slot? id = some slot)
    (target : NodeId) :
    (row.heads.foldl (fun arena item => if arena.isGroup item then arena.unselect depth item
      else arena.modify item Slot.unmark) arena).slot? target =
        if target ∈ row.ids then (arena.slot? target).map Slot.unmark else arena.slot? target := by
  induction row generalizing holder depth arena target with
  | nil => rfl
  | clause id body rest ih =>
      obtain ⟨outside, restDistinct⟩ := List.nodup_cons.mp distinct
      have notGroup : arena.isGroup id = false := isGroup_of_slot? (filled id _ List.mem_cons_self)
      rw [Forest.heads, List.foldl_cons, notGroup, if_neg Bool.false_ne_true,
        ih holder _ restDistinct deep]
      · rw [slot?_modify]
        by_cases same : target = id
        · subst same
          simp [outside, Forest.ids]
        · simp [same, Forest.ids]
      · intro other slot entry
        have different : other ≠ id := fun same =>
          outside (same ▸ Forest.mem_ids_of_mem_slots entry)
        rw [slot?_modify, if_neg different]
        exact filled other slot (List.mem_cons_of_mem _ entry)
  | group id members rest inner ih =>
      obtain ⟨inside, outside, membersDistinct, restDistinct, apart⟩ :=
        Forest.nodup_ids_group distinct
      rw [Forest.height] at deep
      obtain ⟨depth, rfl⟩ := Nat.exists_eq_succ_of_ne_zero (by omega : depth ≠ 0)
      have slot := filled id _ List.mem_cons_self
      have isGroup : arena.isGroup id = true := isGroup_of_slot? slot
      have children : arena.children id = members.heads := children_of_slot? slot
      have below : ∀ target, (arena.unselect (depth + 1) id).slot? target =
          if target ∈ members.ids then (arena.slot? target).map Slot.unmark else arena.slot? target := by
        rw [Arena.unselect, children]
        refine inner id arena membersDistinct (by omega) ?_
        intro other slot entry
        exact filled other slot (List.mem_cons_of_mem _ (List.mem_append_left _ entry))
      rw [Forest.heads, List.foldl_cons, isGroup, if_pos rfl,
        ih holder _ restDistinct (by omega), below]
      · by_cases same : target = id
        · subst same
          simp [inside, outside, Forest.ids, slot, Slot.unmark, Slot.editClause]
        · by_cases member : target ∈ members.ids
          · simp [member, apart target member, Forest.ids]
          · simp [same, member, Forest.ids]
      · intro other slot entry
        have member := Forest.mem_ids_of_mem_slots entry
        rw [below, if_neg fun there => apart other there member]
        exact filled other slot (List.mem_cons_of_mem _ (List.mem_append_right _ entry))

namespace Holds

variable {arena : Arena} {row left item right : Forest} {layers : List Layer} {target : NodeId}

theorem holder_lt_next (holds : arena.Holds row layers) : Layer.holder layers < arena.next :=
  lt_next_of_slot? holds.slot?_holder

/-! ## A new clause -/

theorem insertAt (holds : arena.Holds (left ++ right) layers)
    (apart : (left ++ right).Apart layers) (body : Clause) :
    (arena.insertAt (Layer.holder layers) left.width body).Holds
      (left ++ .clause arena.next body right) layers := by
  have more : (left ++ .clause arena.next body right).ids.Perm
      (arena.next :: (left ++ right).ids) := by
    simp [Forest.ids]
  have pushed : ∀ id, id ≠ Layer.holder layers → id ≠ arena.next →
      (arena.insertAt (Layer.holder layers) left.width body).slot? id = arena.slot? id := by
    intro id inner old
    rw [Arena.insertAt, editItems, slot?_modify, if_neg inner, slot?_push, if_neg old]
  have kept : ∀ id slot, (id, slot) ∈ (left ++ right).slots (Layer.holder layers) →
      (arena.insertAt (Layer.holder layers) left.width body).slot? id = some slot := by
    intro id slot entry
    have member := Forest.mem_ids_of_mem_slots entry
    rw [pushed id (apart.ne_holder member) (Nat.ne_of_lt (holds.lt_next_of_mem_ids member))]
    exact holds.slot?_of_mem entry
  refine holds.edit apart (holds.apart_of_perm apart more) ?_ ?_ ?_ ?_
  · rw [Arena.insertAt, editItems, slot?_modify, if_pos rfl, slot?_push,
      if_neg (Nat.ne_of_lt holds.holder_lt_next), holds.slot?_holder]
    simp only [Option.map_some, Layer.here, Slot.editItems, Forest.heads_append, Forest.heads]
    rw [Forest.width, insertIdx_between]
  · intro id slot entry
    rw [Forest.slots_append, Forest.slots, List.mem_append, List.mem_cons] at entry
    rcases entry with before | new | later
    · exact kept id slot (by simp [before])
    · cases new
      rw [Arena.insertAt, editItems, slot?_modify, if_neg (Nat.ne_of_gt holds.holder_lt_next),
        slot?_push, if_pos rfl]
    · exact kept id slot (by simp [later])
  · exact fun id member gone => absurd (more.symm.subset (List.mem_cons_of_mem _ member)) gone
  · intro id inner _ absent
    refine pushed id inner fun same => absent ?_
    exact more.symm.subset (same ▸ List.mem_cons_self)

theorem insertAfter_eq (holds : arena.Holds (left ++ (item ++ right)) layers)
    (apart : (left ++ (item ++ right)).Apart layers) (isItem : Forest.Item target item)
    (body : Clause) :
    arena.insertAfter target body = arena.insertAt (Layer.holder layers) (left ++ item).width body := by
  have children : arena.children (Layer.holder layers) = left.heads ++ target :: right.heads := by
    rw [holds.children_holder]
    simp [isItem.heads]
  have follows : (left.heads ++ target :: right.heads)[left.width + 1]? = right.heads.head? := by
    rw [Forest.width, List.getElem?_append_right (Nat.le_succ _)]
    simp [List.head?_eq_getElem?]
  rw [Arena.insertAfter, holds.place?_item apart isItem, Option.bind_some]
  simp only [children, follows]
  rcases Forest.eq_nil_or_exists_item right with rfl | ⟨next, after, later, rfl, isNext⟩
  · simp only [Forest.heads, List.head?_nil, holds.parent?_item isItem, Option.getD_some]
    have ends : (arena.children (Layer.holder layers)).length = (left ++ item).width := by
      simp [children, isItem.heads, Forest.heads, Forest.width]
    rw [Arena.insertBefore, Option.bind_none, holds.isGroup_holder, if_pos rfl]
    simp only [ends]
  · rw [← Forest.append_assoc] at holds apart
    simp only [Forest.heads_append, isNext.heads, List.singleton_append, List.head?_cons]
    rw [Arena.insertBefore, Option.bind_some, holds.place?_item apart isNext]

/-! ## Nodes that go -/

theorem takeOut {gone : Forest} (holds : arena.Holds (left ++ (gone ++ right)) layers)
    (apart : (left ++ (gone ++ right)).Apart layers) (edit : List NodeId → List NodeId)
    (fits : edit (left ++ (gone ++ right)).heads = (left ++ right).heads) {depth : Nat}
    (deep : gone.height < depth) :
    (gone.heads.foldl (dispose depth) (arena.editItems (Layer.holder layers) edit)).Holds
      (left ++ right) layers := by
  have distinct := apart.ids_nodup
  simp only [Forest.ids_append] at distinct
  obtain ⟨_, rightDistinct, apartLeft⟩ := List.nodup_append.mp distinct
  obtain ⟨goneDistinct, _, apartRight⟩ := List.nodup_append.mp rightDistinct
  have taken : ∀ id, id ≠ Layer.holder layers →
      (arena.editItems (Layer.holder layers) edit).slot? id = arena.slot? id := by
    intro id inner
    rw [editItems, slot?_modify, if_neg inner]
  have inGone : ∀ {id}, id ∈ gone.ids → id ∈ (left ++ (gone ++ right)).ids := fun member => by
    simp [member]
  have slots : ∀ id,
      (gone.heads.foldl (dispose depth) (arena.editItems (Layer.holder layers) edit)).slot? id =
        if id ∈ gone.ids then none else (arena.editItems (Layer.holder layers) edit).slot? id := by
    refine slot?_foldl_dispose (Layer.holder layers) _ goneDistinct deep ?_
    intro id slot entry
    rw [taken id (apart.ne_holder (inGone (Forest.mem_ids_of_mem_slots entry)))]
    exact holds.slot?_of_mem (by simp [entry])
  have sublist : (left ++ right).ids.Sublist (left ++ (gone ++ right)).ids := by
    simp
  refine holds.edit apart (apart.of_sublist sublist) ?_ ?_ ?_ ?_
  · rw [slots, if_neg fun member => apart.ne_holder (inGone member) rfl, editItems, slot?_modify,
      if_pos rfl, holds.slot?_holder, ← fits]
    rfl
  · intro id slot entry
    have member := sublist.subset (Forest.mem_ids_of_mem_slots entry)
    have other : id ∉ gone.ids := by
      intro there
      rw [Forest.slots_append, List.mem_append] at entry
      rcases entry with before | later
      · exact apartLeft id (Forest.mem_ids_of_mem_slots before) id (List.mem_append_left _ there) rfl
      · exact apartRight id there id (Forest.mem_ids_of_mem_slots later) rfl
    rw [slots, if_neg other, taken id (apart.ne_holder member)]
    refine holds.slot?_of_mem ?_
    simp only [Forest.slots_append, List.mem_append] at entry ⊢
    tauto
  · intro id member absent
    have inside : id ∈ gone.ids := by
      simp only [Forest.ids_append, List.mem_append] at member absent
      tauto
    rw [slots, if_pos inside]
  · intro id inner absent _
    rw [slots, if_neg fun member => absent (inGone member), taken id inner]

/-- A group gives way to its members, which are hung to its parent. -/
theorem promote {id : NodeId} {members : Forest}
    (holds : arena.Holds (left ++ .group id members right) layers)
    (apart : (left ++ .group id members right).Apart layers) (edit : List NodeId → List NodeId)
    (fits : edit (left.heads ++ id :: right.heads) = (left ++ (members ++ right)).heads) :
    ((members.heads.foldl (hang · (Layer.holder layers)) (arena.vacate id)).editItems
      (Layer.holder layers) edit).Holds (left ++ (members ++ right)) layers := by
  have distinct := apart.ids_nodup
  rw [Forest.ids_append] at distinct
  obtain ⟨_, rightDistinct, apartLeft⟩ := List.nodup_append.mp distinct
  obtain ⟨inside, outside, membersDistinct, _, apartRight⟩ := Forest.nodup_ids_group rightDistinct
  have sublist : (left ++ (members ++ right)).ids.Sublist
      (left ++ .group id members right).ids := by
    simp [Forest.ids]
  have member : id ∈ (left ++ .group id members right).ids := by simp [Forest.ids]
  have vacated : ∀ other, other ≠ id → (arena.vacate id).slot? other = arena.slot? other := by
    intro other different
    rw [slot?_vacate, if_neg different]
  have slots : ∀ other, other ≠ Layer.holder layers →
      ((members.heads.foldl (hang · (Layer.holder layers)) (arena.vacate id)).editItems
        (Layer.holder layers) edit).slot? other =
          (members.heads.foldl (hang · (Layer.holder layers)) (arena.vacate id)).slot? other := by
    intro other inner
    rw [editItems, slot?_modify, if_neg inner]
  refine holds.edit apart (apart.of_sublist sublist) ?_ ?_ ?_ ?_
  · have absent : Layer.holder layers ∉ members.ids := fun there =>
      apart.ne_holder (by simp [Forest.ids, there]) rfl
    rw [editItems, slot?_modify, if_pos rfl, slot?_foldl_hang_of_not_mem _ _ absent,
      vacated _ (apart.ne_holder member).symm, holds.slot?_holder]
    simp only [Option.map_some, Layer.here, Slot.editItems, Forest.heads_append, Forest.heads, fits]
  · intro other slot entry
    have present := sublist.subset (Forest.mem_ids_of_mem_slots entry)
    rw [slots other (apart.ne_holder present)]
    rw [Forest.slots_append, Forest.slots_append, List.mem_append, List.mem_append] at entry
    rcases entry with before | here | later
    · have there := Forest.mem_ids_of_mem_slots before
      have different : other ≠ id := fun same => apartLeft other there id List.mem_cons_self same
      have absent : other ∉ members.ids := fun below =>
        apartLeft other there other (List.mem_cons_of_mem _ (List.mem_append_left _ below)) rfl
      rw [slot?_foldl_hang_of_not_mem _ _ absent, vacated other different]
      exact holds.slot?_of_mem (by simp [before])
    · refine slot?_foldl_hang_of_mem_slots id membersDistinct ?_ here
      intro other slot entry
      have different : other ≠ id := fun same => inside (same ▸ Forest.mem_ids_of_mem_slots entry)
      rw [vacated other different]
      exact holds.slot?_of_mem (by simp [Forest.slots, entry])
    · have there := Forest.mem_ids_of_mem_slots later
      have different : other ≠ id := fun same => outside (same ▸ there)
      have absent : other ∉ members.ids := fun below => apartRight other below there
      rw [slot?_foldl_hang_of_not_mem _ _ absent, vacated other different]
      exact holds.slot?_of_mem (by simp [Forest.slots, later])
  · intro other present gone
    have same : other = id := by
      simp only [Forest.ids_append, Forest.ids, List.mem_append, List.mem_cons] at present gone
      tauto
    subst same
    rw [slots other (apart.ne_holder member), slot?_foldl_hang_of_not_mem _ _ inside, slot?_vacate,
      if_pos rfl]
  · intro other inner absent _
    have different : other ≠ id := fun same => absent (same ▸ member)
    have notMember : other ∉ members.ids := fun below => absent (by simp [Forest.ids, below])
    rw [slots other inner, slot?_foldl_hang_of_not_mem _ _ notMember, vacated other different]

/-- Settling a group settles all the groups around it that lose an item by that. -/
theorem dissolve (holds : arena.Holds row layers) (apart : row.Apart layers) {depth : Nat}
    (deep : layers.length < depth) :
    (arena.dissolve depth (Layer.holder layers)).Holds (row.settleWithin layers) [] := by
  induction layers generalizing arena row depth with
  | nil =>
      obtain ⟨depth, rfl⟩ := Nat.exists_eq_succ_of_ne_zero (Nat.ne_zero_of_lt deep)
      rw [Arena.dissolve, if_pos (.inl rfl)]
      exact holds
  | cons layer outer ih =>
      obtain ⟨depth, rfl⟩ := Nat.exists_eq_succ_of_ne_zero (Nat.ne_zero_of_lt deep)
      have children : arena.children layer.id = row.heads := holds.children_holder
      have around := holds_within.mpr holds
      have aroundApart := Forest.apart_within.mpr apart
      have asItem : arena.Holds (layer.left ++ (.group layer.id row .nil ++ layer.right)) outer :=
        around
      rw [Layer.holder_cons, Arena.dissolve, children]
      by_cases many : 1 < row.heads.length
      · have wide : row.width = row.heads.length := rfl
        rw [if_pos (.inr many), Forest.settleWithin, if_neg (by omega), if_neg (by omega)]
        exact holds_root_iff.mp holds
      · rw [if_neg (by simp [apart.ne_root, many]), asItem.place?_item aroundApart (.group row)]
        have few : row.width = 0 ∨ row.width = 1 := by
          have narrow : ¬ 1 < row.width := many
          omega
        rcases few with none | one
        · cases Forest.eq_nil_of_width_eq_zero none
          have gone := around.promote aroundApart (·.eraseIdx layer.left.width) (by
            simp [Forest.width, List.eraseIdx_append_of_length_le])
          have sublist : (layer.left ++ layer.right).ids.Sublist
              (layer.left ++ .group layer.id .nil layer.right).ids := by
            simp [Forest.ids]
          exact ih gone (aroundApart.of_sublist sublist) (Nat.lt_of_succ_lt_succ deep)
        · obtain ⟨orphan, isItem⟩ := Forest.exists_item_of_width_eq_one one
          have raised := around.promote aroundApart (·.set layer.left.width orphan) (by
            simp [Forest.width, isItem.heads])
          rw [Forest.settleWithin, if_neg (by omega), if_pos one]
          rw [isItem.heads] at raised ⊢
          exact holds_root_iff.mp raised

/-! ## A new group -/

theorem wrap {run : Forest} (holds : arena.Holds (left ++ (run ++ right)) layers)
    (apart : (left ++ (run ++ right)).Apart layers) (edit : List NodeId → List NodeId)
    (fits : edit (left ++ (run ++ right)).heads = left.heads ++ arena.next :: right.heads) :
    ((run.heads.foldl (hang · arena.next)
      ((arena.push { parent := Layer.holder layers, content := .group [] }).editItems
        (Layer.holder layers) edit)).editItems arena.next fun _ => run.heads).Holds
      (left ++ .group arena.next run right) layers := by
  have more : (left ++ .group arena.next run right).ids.Perm
      (arena.next :: (left ++ (run ++ right)).ids) := by
    simp [Forest.ids]
  have stillApart := holds.apart_of_perm apart more
  have distinct := stillApart.ids_nodup
  rw [Forest.ids_append] at distinct
  obtain ⟨_, rightDistinct, apartLeft⟩ := List.nodup_append.mp distinct
  obtain ⟨inside, outside, runDistinct, _, apartRight⟩ := Forest.nodup_ids_group rightDistinct
  have old : ∀ {id}, id ∈ (left ++ (run ++ right)).ids → id ≠ Layer.holder layers ∧ id ≠ arena.next :=
    fun member => ⟨apart.ne_holder member, Nat.ne_of_lt (holds.lt_next_of_mem_ids member)⟩
  have earlier := Nat.ne_of_lt holds.holder_lt_next
  have spliced : ∀ id, id ≠ Layer.holder layers → id ≠ arena.next →
      ((arena.push { parent := Layer.holder layers, content := .group [] }).editItems
        (Layer.holder layers) edit).slot? id = arena.slot? id := by
    intro id inner known
    rw [editItems, slot?_modify, if_neg inner, slot?_push, if_neg known]
  have slots : ∀ id, id ≠ arena.next →
      ((run.heads.foldl (hang · arena.next)
        ((arena.push { parent := Layer.holder layers, content := .group [] }).editItems
          (Layer.holder layers) edit)).editItems arena.next fun _ => run.heads).slot? id =
        (run.heads.foldl (hang · arena.next)
          ((arena.push { parent := Layer.holder layers, content := .group [] }).editItems
            (Layer.holder layers) edit)).slot? id := by
    intro id known
    rw [editItems, slot?_modify, if_neg known]
  have kept : ∀ id slot, id ∉ run.ids →
      (id, slot) ∈ (left ++ (run ++ right)).slots (Layer.holder layers) →
      ((run.heads.foldl (hang · arena.next)
        ((arena.push { parent := Layer.holder layers, content := .group [] }).editItems
          (Layer.holder layers) edit)).editItems arena.next fun _ => run.heads).slot? id =
        some slot := by
    intro id slot absent entry
    obtain ⟨inner, known⟩ := old (Forest.mem_ids_of_mem_slots entry)
    rw [slots id known, slot?_foldl_hang_of_not_mem _ _ absent, spliced id inner known]
    exact holds.slot?_of_mem entry
  refine holds.edit apart stillApart ?_ ?_ ?_ ?_
  · have absent : Layer.holder layers ∉ run.ids := fun there =>
      apart.ne_holder (by simp [there]) rfl
    rw [slots _ earlier, slot?_foldl_hang_of_not_mem _ _ absent, editItems, slot?_modify,
      if_pos rfl, slot?_push, if_neg earlier, holds.slot?_holder]
    simp only [Option.map_some, Layer.here, Slot.editItems, fits]
    simp [Forest.heads]
  · intro id slot entry
    rw [Forest.slots_append, Forest.slots, List.mem_append, List.mem_cons, List.mem_append] at entry
    rcases entry with before | new | here | later
    · have there := Forest.mem_ids_of_mem_slots before
      have absent : id ∉ run.ids := fun below =>
        apartLeft id there id (List.mem_cons_of_mem _ (List.mem_append_left _ below)) rfl
      exact kept id slot absent (by simp [before])
    · cases new
      rw [editItems, slot?_modify, if_pos rfl, slot?_foldl_hang_of_not_mem _ _ inside, editItems,
        slot?_modify, if_neg earlier.symm, slot?_push, if_pos rfl]
      rfl
    · have member : id ∈ (left ++ (run ++ right)).ids := by
        simp [Forest.mem_ids_of_mem_slots here]
      rw [slots id (old member).2]
      refine slot?_foldl_hang_of_mem_slots (Layer.holder layers) runDistinct ?_ here
      intro id slot entry
      have member : id ∈ (left ++ (run ++ right)).ids := by
        simp [Forest.mem_ids_of_mem_slots entry]
      rw [spliced id (old member).1 (old member).2]
      exact holds.slot?_of_mem (by simp [entry])
    · have there := Forest.mem_ids_of_mem_slots later
      exact kept id slot (fun below => apartRight id below there) (by simp [later])
  · exact fun id member gone => absurd (more.symm.subset (List.mem_cons_of_mem _ member)) gone
  · intro id inner absent fresh
    have known : id ≠ arena.next := fun same => fresh (same ▸ more.symm.subset List.mem_cons_self)
    have notRun : id ∉ run.ids := fun below => absent (by simp [below])
    rw [slots id known, slot?_foldl_hang_of_not_mem _ _ notRun, spliced id inner known]

theorem wrapRun (holds : arena.Holds row layers) (apart : row.Apart layers) (start count : Nat) :
    (((row.heads.drop start).take count).foldl (hang · arena.next)
      ((arena.push { parent := Layer.holder layers, content := .group [] }).editItems
        (Layer.holder layers) fun items =>
          items.take start ++ arena.next :: items.drop (start + count))
      |>.editItems arena.next fun _ => (row.heads.drop start).take count).Holds
      (row.wrap start count arena.next) layers := by
  have parts : row.take start ++ ((row.drop start).take count ++ row.drop (start + count)) = row := by
    rw [← Forest.drop_drop, Forest.take_append_drop, Forest.take_append_drop]
  have run : ((row.drop start).take count).heads = (row.heads.drop start).take count := by
    rw [Forest.heads_take, Forest.heads_drop]
  rw [← run]
  refine wrap (by rw [parts]; exact holds) (by rw [parts]; exact apart) _ ?_
  rw [parts, Forest.heads_take, Forest.heads_drop]

/-! ## Marks and clauses -/

theorem unselect (holds : arena.Holds row layers) (apart : row.Apart layers) {depth : Nat}
    (deep : row.height < depth) :
    (arena.unselect depth (Layer.holder layers)).Holds row.unselect layers := by
  obtain ⟨depth, rfl⟩ := Nat.exists_eq_succ_of_ne_zero (Nat.ne_zero_of_lt deep)
  have slots : ∀ id, (arena.unselect (depth + 1) (Layer.holder layers)).slot? id =
      if id ∈ row.ids then (arena.slot? id).map Slot.unmark else arena.slot? id := by
    intro id
    rw [Arena.unselect, holds.children_holder]
    exact slot?_foldl_unselect (Layer.holder layers) arena apart.ids_nodup (Nat.le_of_lt_succ deep)
      (fun _ _ entry => holds.slot?_of_mem entry) id
  have sublist : row.unselect.ids.Sublist row.ids := by simp
  refine holds.edit apart (apart.of_sublist sublist) ?_ ?_ ?_ ?_
  · rw [slots, if_neg fun member => apart.ne_holder member rfl, holds.slot?_holder,
      Forest.heads_unselect]
  · intro id slot entry
    rw [slots_unselect] at entry
    obtain ⟨⟨other, old⟩, found, same⟩ := List.mem_map.mp entry
    cases same
    rw [slots, if_pos (Forest.mem_ids_of_mem_slots found), holds.slot?_of_mem found]
    rfl
  · exact fun id member gone => absurd (by simpa using member) gone
  · exact fun id _ absent _ => by rw [slots, if_neg absent]

theorem slots_updateClause (row : Forest) (holder target : NodeId) (edit : Clause → Clause) :
    (row.updateClause target edit).slots holder = (row.slots holder).map fun entry =>
      (entry.1, if entry.1 = target then entry.2.editClause edit else entry.2) := by
  induction row generalizing holder with
  | nil => rfl
  | clause id body rest ih =>
      simp only [Forest.updateClause, Forest.slots, ih, List.map_cons]
      split <;> rfl
  | group id members rest inner ih =>
      simp only [Forest.updateClause, Forest.slots, inner, ih, Forest.heads_updateClause,
        List.map_cons, List.map_append]
      split <;> rfl

theorem editClause (holds : arena.Holds row []) (apart : row.Apart []) (target : NodeId)
    (edit : Clause → Clause) :
    (arena.editClause target edit).Holds (row.updateClause target edit) [] := by
  have slots : ∀ id, (arena.editClause target edit).slot? id =
      if id = target then (arena.slot? target).map (·.editClause edit) else arena.slot? id :=
    fun id => slot?_modify arena target id _
  have sublist : (row.updateClause target edit).ids.Sublist row.ids := by simp
  refine holds.edit apart (apart.of_sublist sublist) ?_ ?_ ?_ ?_
  · have top := holds.slot?_holder
    rw [slots, Forest.heads_updateClause]
    by_cases same : Layer.holder [] = target
    · rw [if_pos same, ← same, top]
      rfl
    · rw [if_neg same, top]
  · intro id slot entry
    rw [slots_updateClause] at entry
    obtain ⟨⟨other, old⟩, found, same⟩ := List.mem_map.mp entry
    cases same
    have filled : arena.slot? other = some old := holds.slot?_of_mem found
    rw [slots]
    by_cases here : other = target
    · simp [← here, filled]
    · simp [here, filled]
  · exact fun id member gone => absurd (by simpa using member) gone
  · intro id inner absent _
    have empty := holds.slot?_eq_none inner absent
    rw [slots]
    by_cases here : id = target
    · simp [← here, empty]
    · simp [here]

end Holds

/-! ## Reading the marks -/

theorem map_selection {row : Forest} (holder : NodeId) {depth : Nat} (arena : Arena)
    (deep : row.height < depth)
    (filled : ∀ id slot, (id, slot) ∈ row.slots holder → arena.slot? id = some slot) :
    row.heads.map (arena.selection depth) = row.selections := by
  induction row generalizing holder depth with
  | nil => rfl
  | clause id body rest ih =>
      obtain ⟨depth, rfl⟩ := Nat.exists_eq_succ_of_ne_zero (Nat.ne_zero_of_lt deep)
      have slot := filled id _ List.mem_cons_self
      have later := ih holder deep fun other slot entry =>
        filled other slot (List.mem_cons_of_mem _ entry)
      rw [Forest.heads, List.map_cons, Forest.selections, later, selection, slot]
  | group id members rest inner ih =>
      obtain ⟨depth, rfl⟩ := Nat.exists_eq_succ_of_ne_zero (Nat.ne_zero_of_lt deep)
      rw [Forest.height] at deep
      have slot := filled id _ List.mem_cons_self
      have below := inner id (by omega : members.height < depth) fun other slot entry =>
        filled other slot (List.mem_cons_of_mem _ (List.mem_append_left _ entry))
      have later := ih holder (by omega : rest.height < depth + 1) fun other slot entry =>
        filled other slot (List.mem_cons_of_mem _ (List.mem_append_right _ entry))
      rw [Forest.heads, List.map_cons, Forest.selections, later, selection, slot, ← below]

end Arena

end WhereEditor
