import WhereEditor.Proofs.Arena.Represents

/-!
How far the slots can be walked from a node, downwards along the items and upwards along the parents.
Main statements: emptying slots makes no walk longer; and in slots that hold a tree, every walk, from
whatever id, takes fewer steps than there are slots.
-/

namespace WhereEditor

namespace Forest

/-- The deepest group holds a clause, so there are more nodes than levels. -/
theorem height_lt_length_ids {row : Forest} (occupied : row.AtLeast 1) (inhabited : row ≠ nil) :
    row.height < row.ids.length := by
  induction row with
  | nil => exact absurd rfl inhabited
  | clause id body rest ih =>
      rw [height, ids, List.length_cons]
      exact Nat.lt_succ_of_le rest.height_le_length_ids
  | group id members rest inner ih =>
      obtain ⟨wide, membersOccupied, _⟩ := occupied
      have below : members ≠ nil := by
        rintro rfl
        exact absurd wide (by decide)
      have deeper := inner membersOccupied below
      have later := rest.height_le_length_ids
      simp only [height, ids, List.length_cons, List.length_append]
      omega

end Forest

theorem Layer.length_le_length_ids (layers : List Layer) : layers.length ≤ (ids layers).length := by
  induction layers with
  | nil => exact Nat.le_refl _
  | cons layer outer ih =>
      simp only [ids, List.length_cons, List.length_append]
      omega

namespace Arena

variable {arena later earlier : Arena} {depth more : Nat} {id : NodeId}

/-! ## Fading -/

structure Fades (later earlier : Arena) : Prop where
  children : ∀ id, later.children id ⊆ earlier.children id
  parent? : ∀ id parent, later.parent? id = some parent → earlier.parent? id = some parent

namespace Fades

theorem refl (arena : Arena) : arena.Fades arena :=
  ⟨fun _ => List.Subset.refl _, fun _ _ => id⟩

theorem trans {first second third : Arena} (onward : third.Fades second)
    (before : second.Fades first) : third.Fades first :=
  ⟨fun id => List.Subset.trans (onward.children id) (before.children id),
    fun id parent up => before.parent? id parent (onward.parent? id parent up)⟩

theorem vacate (arena : Arena) (id : NodeId) : (arena.vacate id).Fades arena := by
  constructor
  · intro other
    rw [Arena.children, items?, slot?_vacate]
    split
    · exact List.nil_subset _
    · exact List.Subset.refl _
  · intro other parent up
    rw [Arena.parent?, slot?_vacate] at up
    split at up
    · exact absurd up (by simp)
    · exact up

theorem modify (arena : Arena) (id : NodeId) {edit : Slot → Slot}
    (parent : ∀ slot, (edit slot).parent = slot.parent)
    (items : ∀ slot, (edit slot).items?.getD [] ⊆ slot.items?.getD []) :
    (arena.modify id edit).Fades arena := by
  constructor
  · intro other
    rw [Arena.children, items?, slot?_modify]
    split
    · rename_i same
      rw [same, Arena.children, items?]
      cases arena.slot? id with
      | none => exact List.Subset.refl _
      | some slot => exact items slot
    · exact List.Subset.refl _
  · intro other holder up
    rw [Arena.parent?, slot?_modify] at up
    split at up
    · rename_i same
      rw [same, Arena.parent?]
      cases filled : arena.slot? id with
      | none =>
          rw [filled] at up
          exact absurd up (by simp)
      | some slot =>
          rw [filled] at up
          exact (parent slot).symm.trans up
    · exact up

theorem unmark (arena : Arena) (id : NodeId) : (arena.modify id Slot.unmark).Fades arena := by
  refine modify arena id (fun slot => ?_) fun slot => ?_
  · rcases slot with ⟨_, body | items⟩ <;> rfl
  · rcases slot with ⟨_, body | items⟩ <;> exact List.Subset.refl _

theorem editItems (arena : Arena) (id : NodeId) {edit : List NodeId → List NodeId}
    (fewer : ∀ items, edit items ⊆ items) : (arena.editItems id edit).Fades arena := by
  refine modify arena id (fun slot => ?_) fun slot => ?_
  · rcases slot with ⟨_, body | items⟩ <;> rfl
  · rcases slot with ⟨_, body | items⟩
    · exact List.Subset.refl _
    · exact fewer items

theorem foldl {step : Arena → NodeId → Arena} (each : ∀ arena id, (step arena id).Fades arena)
    (ids : List NodeId) (arena : Arena) : (ids.foldl step arena).Fades arena :=
  List.foldlRecOn (motive := (Fades · arena)) ids step (refl arena)
    fun _ fades id _ => (each _ id).trans fades

theorem dispose (depth : Nat) (arena : Arena) (id : NodeId) : (arena.dispose depth id).Fades arena := by
  induction depth generalizing arena id with
  | zero => exact refl arena
  | succ depth ih =>
      rw [Arena.dispose]
      split
      · exact (foldl ih _ _).trans (vacate arena id)
      · exact refl arena

theorem unselect (depth : Nat) (arena : Arena) (group : NodeId) :
    (arena.unselect depth group).Fades arena := by
  induction depth generalizing arena group with
  | zero => exact refl arena
  | succ depth ih =>
      refine foldl (fun arena item => ?_) _ arena
      split
      · exact ih arena item
      · exact unmark arena item

end Fades

/-! ## Down and up -/

def Shallow (arena : Arena) : Nat → NodeId → Prop
  | 0, _ => False
  | depth + 1, id => ∀ item ∈ arena.children id, arena.Shallow depth item

def Climbs (arena : Arena) : Nat → NodeId → Prop
  | 0, _ => False
  | depth + 1, id => ∀ parent, arena.parent? id = some parent → arena.Climbs depth parent

theorem Shallow.fades (shallow : earlier.Shallow depth id) (fades : later.Fades earlier) :
    later.Shallow depth id := by
  induction depth generalizing id with
  | zero => exact shallow
  | succ depth ih => exact fun item member => ih (shallow item (fades.children id member))

theorem Climbs.fades (climbs : earlier.Climbs depth id) (fades : later.Fades earlier) :
    later.Climbs depth id := by
  induction depth generalizing id with
  | zero => exact climbs
  | succ depth ih => exact fun parent up => ih (climbs parent (fades.parent? id parent up))

theorem Shallow.mono (shallow : arena.Shallow depth id) (le : depth ≤ more) :
    arena.Shallow more id := by
  induction depth generalizing more id with
  | zero => exact shallow.elim
  | succ depth ih =>
      obtain ⟨more, rfl⟩ := Nat.exists_eq_succ_of_ne_zero (by omega : more ≠ 0)
      exact fun item member => ih (shallow item member) (Nat.le_of_succ_le_succ le)

theorem Climbs.mono (climbs : arena.Climbs depth id) (le : depth ≤ more) : arena.Climbs more id := by
  induction depth generalizing more id with
  | zero => exact climbs.elim
  | succ depth ih =>
      obtain ⟨more, rfl⟩ := Nat.exists_eq_succ_of_ne_zero (by omega : more ≠ 0)
      exact fun parent up => ih (climbs parent up) (Nat.le_of_succ_le_succ le)

theorem shallow_of_children_eq_nil (none_ : arena.children id = []) : arena.Shallow 1 id :=
  fun _ member => absurd (none_ ▸ member) List.not_mem_nil

/-! ## Slots that hold a tree -/

theorem shallow_of_filled {row : Forest} (holder : NodeId) (deep : row.height < depth)
    (filled : ∀ id slot, (id, slot) ∈ row.slots holder → arena.slot? id = some slot) :
    ∀ id ∈ row.heads, arena.Shallow depth id := by
  induction row generalizing holder depth with
  | nil => exact fun id member => absurd member List.not_mem_nil
  | clause id body rest ih =>
      have later := ih holder deep fun other slot entry =>
        filled other slot (List.mem_cons_of_mem _ entry)
      obtain ⟨depth, rfl⟩ := Nat.exists_eq_succ_of_ne_zero (Nat.ne_zero_of_lt deep)
      have none_ : arena.children id = [] := children_of_slot? (filled id _ List.mem_cons_self)
      exact List.forall_mem_cons.mpr
        ⟨(shallow_of_children_eq_nil none_).mono (Nat.succ_pos depth), later⟩
  | group id members rest inner ih =>
      rw [Forest.height] at deep
      have later := ih holder (by omega : rest.height < depth) fun other slot entry =>
        filled other slot (List.mem_cons_of_mem _ (List.mem_append_right _ entry))
      obtain ⟨depth, rfl⟩ := Nat.exists_eq_succ_of_ne_zero (by omega : depth ≠ 0)
      have items : arena.children id = members.heads :=
        children_of_slot? (filled id _ List.mem_cons_self)
      refine List.forall_mem_cons.mpr ⟨fun item member => ?_, later⟩
      rw [items] at member
      exact inner id (by omega) (fun other slot entry =>
        filled other slot (List.mem_cons_of_mem _ (List.mem_append_left _ entry))) item member

theorem Holds.shallow {row : Forest} {layers : List Layer} (holds : arena.Holds row layers)
    (deep : row.height < depth) : arena.Shallow (depth + 1) (Layer.holder layers) := by
  intro item member
  rw [holds.children_holder] at member
  exact shallow_of_filled (Layer.holder layers) deep (fun _ _ entry => holds.slot?_of_mem entry) item
    member

theorem Holds.climbs {row : Forest} {layers : List Layer} (holds : arena.Holds row layers) :
    arena.Climbs (layers.length + 1) (Layer.holder layers) := by
  induction layers generalizing row with
  | nil =>
      intro parent up
      rw [parent?, holds.slot?_holder] at up
      exact absurd up (by simp [Layer.here, Layer.up])
  | cons layer outer ih =>
      intro parent up
      rw [parent?, holds.slot?_holder] at up
      cases up
      exact ih (holds_within.mpr holds)

namespace Represents

variable {tree : Tree} (represents : arena.Represents tree) (sound : tree.Sound)

include represents sound

theorem length_ids_add_length_lt_next {row : Forest} {layers : List Layer}
    (whole : tree.row = row.within layers) : row.ids.length + layers.length < arena.next := by
  have given := sound.length_ids_lt_next
  have around := Layer.length_le_length_ids layers
  rw [whole, (row.ids_within_perm layers).length_eq, List.length_append] at given
  rw [represents.size]
  omega

theorem shallow (id : NodeId) : arena.Shallow arena.next id := by
  cases found : tree.row? id with
  | none =>
      have items : arena.children id = [] := by
        rw [represents.children_eq sound, Tree.children, found]
        rfl
      exact (shallow_of_children_eq_nil items).mono
        (Nat.zero_lt_of_lt (represents.height_lt_next sound))
  | some row =>
      obtain ⟨layers, rfl, whole, _⟩ := sound.exists_layers found
      obtain ⟨holds, _, _⟩ := represents.holds_of_within sound whole
      have fits := represents.length_ids_add_length_lt_next sound whole
      by_cases inhabited : row = .nil
      · refine (shallow_of_children_eq_nil ?_).mono (Nat.zero_lt_of_lt fits)
        rw [holds.children_holder, inhabited]
        rfl
      · have deepest := Forest.height_lt_length_ids (sound.atLeast_row? found) inhabited
        exact (holds.shallow (Nat.lt_succ_self _)).mono (by omega)

theorem climbs (id : NodeId) : arena.Climbs arena.next id := by
  by_cases member : id ∈ tree.row.ids
  · obtain ⟨left, item, right, layers, whole, isItem⟩ := Forest.exists_cut member
    obtain ⟨holds, _, _⟩ := represents.holds_of_within sound whole
    have fits := represents.length_ids_add_length_lt_next sound whole
    have inhabited : 0 < (left ++ (item ++ right)).ids.length :=
      List.length_pos_of_mem (by simp [isItem.mem_ids] : id ∈ _)
    have one : arena.Climbs (layers.length + 1 + 1) id := by
      intro parent up
      rw [holds.parent?_item isItem] at up
      cases up
      exact holds.climbs
    exact one.mono (by omega)
  · have top : arena.Climbs 1 id := by
      intro parent up
      rw [represents.parent?_eq sound, sound.parent?_eq_none member] at up
      exact absurd up (by simp)
    exact top.mono (Nat.zero_lt_of_lt (represents.height_lt_next sound))

end Represents

end Arena

end WhereEditor
