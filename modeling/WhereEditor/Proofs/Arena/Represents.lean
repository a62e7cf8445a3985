import WhereEditor.Proofs.Arena.Edits
import WhereEditor.Proofs.Tree.Links

/-!
Slots and trees, edit by edit: if the slots hold the tree, they hold it after the same edit of both.
Main statement: after every run of edits the slots name as parent of a node, list as items of a
group and hold as clause what the tree has there, and so they hang together as a tree does.
-/

namespace WhereEditor

namespace Forest

variable {row : Forest} {holder id : NodeId} {slot : Slot}

/-! ## The slot of a node -/

theorem clause?_eq_none (absent : id ∉ row.ids) : row.clause? id = none := by
  induction row with
  | nil => rfl
  | clause head body rest ih =>
      simp only [ids, List.mem_cons, not_or] at absent
      rw [clause?, if_neg (Ne.symm absent.1), ih absent.2]
  | group head members rest inner ih =>
      simp only [ids, List.mem_cons, List.mem_append, not_or] at absent
      simp [clause?, inner absent.2.1, ih absent.2.2]

theorem clause?_of_mem_slots (distinct : row.ids.Nodup) (entry : (id, slot) ∈ row.slots holder) :
    row.clause? id = slot.clause? := by
  induction row generalizing holder with
  | nil => exact absurd entry List.not_mem_nil
  | clause head body rest ih =>
      obtain ⟨outside, restDistinct⟩ := List.nodup_cons.mp distinct
      rcases List.mem_cons.mp entry with here | later
      · cases here
        exact if_pos rfl
      · have different : head ≠ id := fun same => outside (same ▸ mem_ids_of_mem_slots later)
        rw [clause?, if_neg different, ih restDistinct later]
  | group head members rest inner ih =>
      obtain ⟨inside, outside, membersDistinct, restDistinct, apart⟩ := nodup_ids_group distinct
      rcases List.mem_cons.mp entry with here | deeper
      · cases here
        simp [clause?, clause?_eq_none inside, clause?_eq_none outside, Slot.clause?]
      · rcases List.mem_append.mp deeper with below | later
        · have absent := apart id (mem_ids_of_mem_slots below)
          simp [clause?, inner membersDistinct below, clause?_eq_none absent]
        · have absent : id ∉ members.ids := fun there =>
            apart id there (mem_ids_of_mem_slots later)
          simp [clause?, ih restDistinct later, clause?_eq_none absent]

theorem items?_of_mem_slots (distinct : row.ids.Nodup) (entry : (id, slot) ∈ row.slots holder) :
    slot.items? = (row.members? id).map heads := by
  induction row generalizing holder with
  | nil => exact absurd entry List.not_mem_nil
  | clause head body rest ih =>
      obtain ⟨outside, restDistinct⟩ := List.nodup_cons.mp distinct
      rcases List.mem_cons.mp entry with here | later
      · cases here
        rw [members?, members?_eq_none outside]
        rfl
      · exact ih restDistinct later
  | group head members rest inner ih =>
      obtain ⟨inside, outside, membersDistinct, restDistinct, apart⟩ := nodup_ids_group distinct
      rw [members?_group]
      rcases List.mem_cons.mp entry with here | deeper
      · cases here
        rw [if_pos rfl]
        rfl
      · rcases List.mem_append.mp deeper with below | later
        · have member := mem_ids_of_mem_slots below
          have different : head ≠ id := fun same => inside (same ▸ member)
          rw [if_neg different, members?_eq_none (apart id member), Option.or_none,
            inner membersDistinct below]
        · have member := mem_ids_of_mem_slots later
          have different : head ≠ id := fun same => outside (same ▸ member)
          have absent : id ∉ members.ids := fun there => apart id there member
          rw [if_neg different, members?_eq_none absent, Option.none_or, ih restDistinct later]

theorem link_of_mem_slots (entry : (id, slot) ∈ row.slots holder) :
    ∃ parent, slot.parent = some parent ∧ (id, parent) ∈ row.links holder := by
  induction row generalizing holder with
  | nil => exact absurd entry List.not_mem_nil
  | clause head body rest ih =>
      rcases List.mem_cons.mp entry with here | later
      · cases here
        exact ⟨holder, rfl, List.mem_cons_self⟩
      · obtain ⟨parent, names, link⟩ := ih later
        exact ⟨parent, names, List.mem_cons_of_mem _ link⟩
  | group head members rest inner ih =>
      rcases List.mem_cons.mp entry with here | deeper
      · cases here
        exact ⟨holder, rfl, List.mem_cons_self⟩
      · rcases List.mem_append.mp deeper with below | later
        · obtain ⟨parent, names, link⟩ := inner below
          exact ⟨parent, names, List.mem_cons_of_mem _ (List.mem_append_left _ link)⟩
        · obtain ⟨parent, names, link⟩ := ih later
          exact ⟨parent, names, List.mem_cons_of_mem _ (List.mem_append_right _ link)⟩

end Forest

namespace Arena

structure Represents (arena : Arena) (tree : Tree) : Prop where
  size : arena.next = tree.next
  holds : arena.Holds tree.row []

def view (arena : Arena) : View where
  contains := arena.contains
  isGroup := arena.isGroup
  parent? := arena.parent?
  children := arena.children
  clause? := arena.clause?

end Arena

theorem Tree.Sound.apart {tree : Tree} {least : Nat} (sound : tree.Sound least) :
    tree.row.Apart [] :=
  Forest.apart_iff.mpr (List.nodup_cons.mpr ⟨sound.root_not_mem, sound.distinct⟩)

namespace Arena.Represents

variable {arena : Arena} {tree : Tree}

/-! ## The views agree -/

theorem slot?_cases (represents : arena.Represents tree) (id : NodeId) :
    (id = NodeId.root ∧
      arena.slot? id = some { parent := none, content := .group tree.row.heads }) ∨
    (∃ slot, (id, slot) ∈ tree.row.slots NodeId.root ∧ arena.slot? id = some slot) ∨
    (id ≠ NodeId.root ∧ id ∉ tree.row.ids ∧ arena.slot? id = none) := by
  by_cases outer : id = NodeId.root
  · exact .inl ⟨outer, outer ▸ represents.holds.slot?_holder⟩
  · by_cases member : id ∈ tree.row.ids
    · obtain ⟨slot, entry⟩ := Forest.exists_slot_of_mem_ids NodeId.root member
      exact .inr (.inl ⟨slot, entry, represents.holds.slot?_of_mem entry⟩)
    · exact .inr (.inr ⟨outer, member, represents.holds.slot?_eq_none outer member⟩)

theorem items?_eq (represents : arena.Represents tree) (sound : tree.Sound) (id : NodeId) :
    arena.items? id = (tree.row? id).map Forest.heads := by
  rw [items?]
  rcases represents.slot?_cases id with ⟨rfl, filled⟩ | ⟨slot, entry, filled⟩ |
    ⟨inner, absent, empty⟩
  · rw [filled]
    rfl
  · have member := Forest.mem_ids_of_mem_slots entry
    have inner : id ≠ NodeId.root := fun same => sound.root_not_mem (same ▸ member)
    rw [filled, Option.bind_some, Forest.items?_of_mem_slots sound.distinct entry,
      Tree.row?_of_ne inner]
  · rw [empty, Tree.row?_of_ne inner, Forest.members?_eq_none absent]
    rfl

theorem isGroup_eq (represents : arena.Represents tree) (sound : tree.Sound) :
    arena.isGroup = tree.isGroup := by
  funext id
  rw [isGroup, represents.items?_eq sound, Option.isSome_map]
  rfl

theorem children_eq (represents : arena.Represents tree) (sound : tree.Sound) :
    arena.children = tree.children := by
  funext id
  rw [children, represents.items?_eq sound, Tree.children]
  cases tree.row? id <;> rfl

theorem contains_eq (represents : arena.Represents tree) : arena.contains = tree.contains := by
  funext id
  rw [Bool.eq_iff_iff, Tree.contains_iff, contains]
  rcases represents.slot?_cases id with ⟨rfl, filled⟩ | ⟨slot, entry, filled⟩ |
    ⟨inner, absent, empty⟩
  · simp [filled]
  · simp [Forest.mem_ids_of_mem_slots entry, filled]
  · simp [inner, absent, empty]

theorem parent?_eq (represents : arena.Represents tree) (sound : tree.Sound) :
    arena.parent? = tree.parent? := by
  funext id
  rw [parent?]
  rcases represents.slot?_cases id with ⟨rfl, filled⟩ | ⟨slot, entry, filled⟩ |
    ⟨inner, absent, empty⟩
  · rw [filled, sound.parent?_root]
    rfl
  · obtain ⟨parent, names, link⟩ := Forest.link_of_mem_slots entry
    rw [filled, Option.bind_some, names, sound.mem_links_iff_parent?.mp link]
  · rw [empty, sound.parent?_eq_none absent]
    rfl

theorem clause?_eq (represents : arena.Represents tree) (sound : tree.Sound) :
    arena.clause? = tree.clause? := by
  funext id
  rw [Tree.clause?, clause?]
  rcases represents.slot?_cases id with ⟨rfl, filled⟩ | ⟨slot, entry, filled⟩ |
    ⟨inner, absent, empty⟩
  · rw [filled, Forest.clause?_eq_none sound.root_not_mem]
    rfl
  · rw [filled, Option.bind_some, Forest.clause?_of_mem_slots sound.distinct entry]
  · rw [empty, Forest.clause?_eq_none absent]
    rfl

theorem place?_eq_none (represents : arena.Represents tree) (sound : tree.Sound) {id : NodeId}
    (absent : id ∉ tree.row.ids) : arena.place? id = none := by
  rw [place?, represents.parent?_eq sound, sound.parent?_eq_none absent]
  rfl

/-! ## The edits one by one -/

theorem height_lt_next (represents : arena.Represents tree) (sound : tree.Sound) :
    tree.row.height < arena.next := by
  rw [represents.size]
  exact Nat.lt_of_le_of_lt tree.row.height_le_length_ids sound.length_ids_lt_next

theorem holds_of_within (represents : arena.Represents tree) (sound : tree.Sound) {row : Forest}
    {layers : List Layer} (whole : tree.row = row.within layers) :
    arena.Holds row layers ∧ row.Apart layers ∧ row.height + layers.length < arena.next := by
  refine ⟨holds_root_iff.mpr (whole ▸ represents.holds), ?_, ?_⟩
  · rw [Forest.apart_iff, ← whole]
    exact Forest.apart_iff.mp sound.apart
  · have deepest := represents.height_lt_next sound
    rw [whole] at deepest
    exact Nat.lt_of_le_of_lt (row.height_add_length_le layers) deepest

theorem append (represents : arena.Represents tree) (sound : tree.Sound) (group : NodeId)
    (body : Clause) :
    (arena.insertAt (if arena.isGroup group then group else NodeId.root)
      (arena.children (if arena.isGroup group then group else NodeId.root)).length body).Represents
      (tree.append group body) := by
  rw [represents.isGroup_eq sound, Tree.append]
  obtain ⟨row, present⟩ := tree.exists_row?_holder group
  generalize (if tree.isGroup group then group else NodeId.root) = holder at present
  obtain ⟨layers, rfl, whole, edited⟩ := sound.exists_layers present
  obtain ⟨holds, apart, _⟩ := represents.holds_of_within sound whole
  rw [← row.append_nil] at holds apart
  refine ⟨by simp [represents.size], ?_⟩
  have inserted := holds.insertAt apart body
  rw [holds_root_iff, represents.size] at inserted
  rw [holds.children_holder]
  simp only [edited]
  simpa [Forest.width] using inserted

theorem insertBefore (represents : arena.Represents tree) (sound : tree.Sound) (group : NodeId)
    (anchor : Option NodeId) (body : Clause) :
    (arena.insertBefore group anchor body).Represents (tree.insertBefore group anchor body) := by
  rw [Arena.insertBefore, Tree.insertBefore]
  cases here : anchor.filter tree.row.ids.contains with
  | none =>
      have noPlace : anchor.bind arena.place? = none := by
        cases anchor with
        | none => rfl
        | some id =>
            have absent : id ∉ tree.row.ids := by simpa using here
            exact represents.place?_eq_none sound absent
      rw [noPlace]
      exact represents.append sound group body
  | some id =>
      have given : anchor = some id ∧ id ∈ tree.row.ids := by
        simpa using Option.filter_eq_some_iff.mp here
      obtain ⟨rfl, member⟩ := given
      obtain ⟨left, item, right, layers, whole, isItem⟩ := Forest.exists_cut member
      obtain ⟨holds, apart, _⟩ := represents.holds_of_within sound whole
      have distinct := whole ▸ sound.distinct
      have edited := (Forest.actsAt_insertBefore id tree.next body).cut distinct isItem
      have one : item.insertBefore id tree.next body = .clause tree.next body item := by
        cases isItem <;> exact if_pos rfl
      have inserted := holds.insertAt apart body
      rw [holds_root_iff, represents.size] at inserted
      have held : (arena.insertAt (Layer.holder layers) left.width body).Holds
          (tree.row.insertBefore id tree.next body) [] := by
        rw [whole, edited, one]
        exact inserted
      rw [Option.bind_some, holds.place?_item apart isItem]
      exact ⟨by simp [represents.size], held⟩

theorem insertAfter (represents : arena.Represents tree) (sound : tree.Sound) (anchor : NodeId)
    (body : Clause) :
    (arena.insertAfter anchor body).Represents (tree.insertAfter anchor body) := by
  rw [Tree.insertAfter]
  by_cases member : anchor ∈ tree.row.ids
  · obtain ⟨left, item, right, layers, whole, isItem⟩ := Forest.exists_cut member
    obtain ⟨holds, apart, _⟩ := represents.holds_of_within sound whole
    have distinct := whole ▸ sound.distinct
    have edited := (Forest.actsAt_insertAfter anchor tree.next body).cut distinct isItem
    have one : item.insertAfter anchor tree.next body = item ++ .clause tree.next body .nil := by
      cases isItem <;> exact if_pos rfl
    rw [holds.insertAfter_eq apart isItem, if_pos member]
    refine ⟨by simp [represents.size], ?_⟩
    rw [← Forest.append_assoc] at holds apart
    have inserted := holds.insertAt apart body
    rw [holds_root_iff, represents.size] at inserted
    simp only [whole, edited, one]
    simpa [Forest.append_assoc] using inserted
  · rw [Arena.insertAfter, represents.place?_eq_none sound member, represents.parent?_eq sound,
      sound.parent?_eq_none member, if_neg member]
    exact represents.insertBefore sound NodeId.root none body

theorem delete (represents : arena.Represents tree) (sound : tree.Sound) (id : NodeId) :
    (arena.delete id).Represents (tree.delete id) := by
  rw [Arena.delete, Tree.delete]
  by_cases member : id ∈ tree.row.ids
  · obtain ⟨left, item, right, layers, whole, isItem⟩ := Forest.exists_cut member
    obtain ⟨holds, apart, far⟩ := represents.holds_of_within sound whole
    have inner : id ≠ NodeId.root := fun same => sound.root_not_mem (same ▸ member)
    have heads := Forest.filter_heads_of_item apart.ids_nodup isItem
    have deep : item.height < arena.next := by
      simp only [Forest.height_append] at far
      omega
    have taken := holds.takeOut apart (·.filter (· != id)) heads deep
    have sublist : (left ++ right).ids.Sublist (left ++ (item ++ right)).ids := by simp
    have settled := taken.dissolve (apart.of_sublist sublist) (by omega : layers.length < arena.next)
    rw [isItem.heads] at settled
    have held := Forest.erase_cut (whole ▸ sound.distinct) isItem
    rw [if_neg inner, holds.parent?_item isItem]
    refine ⟨by simp [represents.size], ?_⟩
    simp only [whole, held]
    exact settled
  · rw [represents.parent?_eq sound, sound.parent?_eq_none member, ite_self,
      Forest.erase_of_not_mem member]
    exact represents

theorem clear (represents : arena.Represents tree) (sound : tree.Sound) :
    arena.clear.Represents tree.clear := by
  have holds := represents.holds
  have apart := sound.apart
  rw [← tree.row.append_nil, ← Forest.nil_append (tree.row ++ .nil)] at holds apart
  have taken := holds.takeOut apart (fun _ => []) rfl (represents.height_lt_next sound)
  have children : arena.children NodeId.root = tree.row.heads := represents.holds.children_holder
  rw [Arena.clear, Tree.clear, children]
  refine ⟨?_, taken⟩
  rw [next_foldl fun arena id => next_dispose _ arena id, next_editItems]
  exact represents.size

theorem ungroup (represents : arena.Represents tree) (sound : tree.Sound) (id : NodeId) :
    (arena.ungroup id).Represents (tree.ungroup id) := by
  rw [Arena.ungroup, Tree.ungroup]
  by_cases member : id ∈ tree.row.ids
  · obtain ⟨left, item, right, layers, whole, isItem⟩ := Forest.exists_cut member
    obtain ⟨holds, apart, _⟩ := represents.holds_of_within sound whole
    have inner : id ≠ NodeId.root := fun same => sound.root_not_mem (same ▸ member)
    have edited := (Forest.actsAt_ungroup id).cut (whole ▸ sound.distinct) isItem
    have place := holds.place?_item apart isItem
    cases isItem with
    | clause body =>
        have slot : arena.slot? id = some { parent := Layer.holder layers, content := .clause body } :=
          holds.slot?_of_mem (by simp [Forest.slots])
        have notGroup : arena.isGroup id = false := isGroup_of_slot? slot
        have same : tree.row.ungroup id = tree.row := by
          rw [whole, edited]
          rfl
        rw [if_pos (.inr (by rw [notGroup]; rfl)), same]
        exact represents
    | group members =>
        have slot : arena.slot? id =
            some { parent := Layer.holder layers, content := .group members.heads } :=
          holds.slot?_of_mem (by simp [Forest.slots])
        have isGroup : arena.isGroup id = true := isGroup_of_slot? slot
        have children : arena.children id = members.heads := children_of_slot? slot
        have raised := holds.promote apart (fun items =>
          items.take left.width ++ members.heads ++ items.drop (left.width + 1)) (by
            simp [Forest.width])
        rw [holds_root_iff] at raised
        rw [if_neg (by simp [inner, isGroup]), place]
        have opened : (Forest.group id members .nil).ungroup id = members := by
          rw [Forest.ungroup, if_pos rfl, Forest.append_nil]
        refine ⟨by simp [represents.size], ?_⟩
        simp only [children, whole, edited, opened]
        exact raised
  · have noPlace : (if id = NodeId.root ∨ !arena.isGroup id then none else arena.place? id) = none := by
      rw [represents.place?_eq_none sound member, ite_self]
    rw [noPlace, (Forest.actsAt_ungroup id).absent member]
    exact represents

theorem unselect (represents : arena.Represents tree) (sound : tree.Sound) (group : NodeId) :
    (arena.unselect arena.next group).Represents (tree.unselect group) := by
  refine ⟨by simp [represents.size, Tree.unselect, Tree.updateRow], ?_⟩
  cases found : tree.row? group with
  | none =>
      have children : arena.children group = [] := by
        rw [represents.children_eq sound, Tree.children, found]
        rfl
      have same : arena.unselect arena.next group = arena := by
        cases arena.next with
        | zero => rfl
        | succ depth => rw [Arena.unselect, children, List.foldl_nil]
      rw [same, Tree.unselect, Tree.updateRow_of_row?_eq_none tree group found]
      exact represents.holds
  | some row =>
      obtain ⟨layers, rfl, whole, edited⟩ := sound.exists_layers found
      obtain ⟨holds, apart, far⟩ := represents.holds_of_within sound whole
      have unmarked := holds.unselect apart (by omega : row.height < arena.next)
      rw [holds_root_iff] at unmarked
      rw [Tree.unselect, edited]
      exact unmarked

theorem updateClause (represents : arena.Represents tree) (sound : tree.Sound) (id : NodeId)
    (edit : Clause → Clause) :
    (arena.editClause id edit).Represents (tree.updateClause id edit) := by
  refine ⟨by simp [Tree.updateClause, represents.size], ?_⟩
  exact represents.holds.editClause sound.apart id edit

theorem run?_eq (represents : arena.Represents tree) (sound : tree.Sound) (group : NodeId) :
    arena.run? group = tree.run? group := by
  rw [Arena.run?, Tree.run?]
  cases found : tree.row? group with
  | none =>
      have children : arena.children group = [] := by
        rw [represents.children_eq sound, Tree.children, found]
        rfl
      rw [children]
      rfl
  | some row =>
      obtain ⟨layers, rfl, whole, _⟩ := sound.exists_layers found
      obtain ⟨holds, _, far⟩ := represents.holds_of_within sound whole
      rw [holds.children_holder, map_selection (Layer.holder layers) arena (by omega)
        fun _ _ entry => holds.slot?_of_mem entry]
      rfl

theorem groupSelected (represents : arena.Represents tree) (sound : tree.Sound) (group : NodeId) :
    (arena.groupSelected group).Represents ((tree.groupSelected? group).getD tree) := by
  rw [Arena.groupSelected, represents.run?_eq sound, Tree.groupSelected?]
  cases run : tree.run? group with
  | none => exact represents
  | some found =>
      obtain ⟨start, count⟩ := found
      obtain ⟨row, present, _⟩ := Option.bind_eq_some_iff.mp run
      obtain ⟨layers, rfl, whole, edited⟩ := sound.exists_layers present
      obtain ⟨holds, apart, far⟩ := represents.holds_of_within sound whole
      have stillApart := holds.apart_of_perm apart (row.ids_wrap_perm start count arena.next)
      have shallow : (row.wrap start count arena.next).height < arena.next + 1 := by
        have bound := row.height_wrap_le start count arena.next
        omega
      have unmarked := (holds.wrapRun apart start count).unselect stillApart shallow
      rw [holds_root_iff, represents.size] at unmarked
      refine ⟨by simp [represents.size], ?_⟩
      simp only [holds.children_holder, next_editItems, next_foldl_hang, next_push, Option.map_some,
        Option.getD_some, Tree.unselect, Tree.updateRow_updateRow, edited, represents.size]
      exact unmarked

theorem apply (represents : arena.Represents tree) (sound : tree.Sound) (edit : Tree.Edit) :
    (arena.apply edit).Represents (tree.apply edit) := by
  cases edit with
  | insertBefore group anchor body => exact represents.insertBefore sound group anchor body
  | insertAfter anchor body => exact represents.insertAfter sound anchor body
  | delete id => exact represents.delete sound id
  | clear => exact represents.clear sound
  | group holder => exact represents.groupSelected sound holder
  | ungroup id => exact represents.ungroup sound id
  | unselect group => exact represents.unselect sound group
  | change id edit => exact represents.updateClause sound id edit

/-! ## Runs of edits -/

theorem empty : Arena.Represents {} {} where
  size := rfl
  holds := by
    intro id slot
    cases id with
    | zero =>
        have first : slot? {} 0 = some { parent := none, content := .group [] } := rfl
        rw [first]
        simp [Layer.here, Layer.beyond, Layer.holder, Layer.up, Forest.heads, Forest.slots,
          NodeId.root, eq_comm]
    | succ id =>
        have beyond : slot? {} (id + 1) = none := rfl
        rw [beyond]
        simp [Layer.here, Layer.beyond, Layer.holder, Forest.slots, NodeId.root]

theorem foldl_apply (represents : arena.Represents tree) (sound : tree.Sound)
    (edits : List Tree.Edit) :
    (edits.foldl Arena.apply arena).Represents (edits.foldl Tree.apply tree) := by
  induction edits generalizing arena tree with
  | nil => exact represents
  | cons edit later ih =>
      have kept := sound.apply (Nat.le_refl 1) (by decide) (.inr rfl : edit.Outermost ∨ 1 = 1)
      exact ih (represents.apply sound edit) kept

theorem view_eq (represents : arena.Represents tree) (sound : tree.Sound) :
    arena.view = tree.view := by
  rw [Arena.view, Tree.view, represents.contains_eq, represents.isGroup_eq sound,
    represents.parent?_eq sound, represents.children_eq sound, represents.clause?_eq sound]

end Arena.Represents

/-- After any run of edits, with any ids, the nodes hang together as a tree should, and the slots
that the same edits lead to show the same nodes in the same places. -/
theorem Arena.linked_view_after (edits : List Tree.Edit) :
    (Tree.after edits).view.Linked ∧ (after edits).view = (Tree.after edits).view := by
  have sound := Tree.sound_after edits
  have represents : (after edits).Represents (Tree.after edits) :=
    Represents.empty.foldl_apply Tree.Sound.empty edits
  exact ⟨sound.linked, represents.view_eq sound⟩

end WhereEditor
