import WhereEditor.Proofs.Tree.Links

/-!
The way up from a row that a tree is cut at, read off the layers around it: the places, the groups,
their rows and how deep the tree is below them. Main statements: a node is one deeper than its
parent, and the groups on its way up are the groups that it is below.
-/

namespace WhereEditor

open Relation

def Layer.places : List Layer → List Place
  | [] => []
  | layer :: outer =>
      ⟨holder outer, layer.left.width, layer.left.width + (layer.right.width + 1)⟩ :: places outer

theorem Layer.length_places (layers : List Layer) : (places layers).length = layers.length := by
  induction layers with
  | nil => rfl
  | cons layer outer ih => rw [places, List.length_cons, List.length_cons, ih]

namespace Forest

variable {target : NodeId}

/-! ## Places -/

theorem placesFrom?_append_of_not_mem {left : Forest} (absent : target ∉ left.ids) (tail : Forest)
    (holder : NodeId) (count index : Nat) :
    (left ++ tail).placesFrom? target holder count index =
      tail.placesFrom? target holder count (index + left.width) := by
  induction left generalizing index with
  | nil => rfl
  | clause id body rest ih =>
      simp only [ids, List.mem_cons, not_or] at absent
      rw [clause_append, placesFrom?, if_neg (Ne.symm absent.1), ih absent.2, width_clause,
        Nat.add_right_comm, Nat.add_assoc]
  | group id members rest _ ih =>
      simp only [ids, List.mem_cons, List.mem_append, not_or] at absent
      rw [group_append, placesFrom?, if_neg (Ne.symm absent.1), placesFrom?_eq_none absent.2.1,
        ih absent.2.2, width_group, Nat.add_right_comm, Nat.add_assoc]

theorem placesFrom?_item {left item : Forest} (absent : target ∉ left.ids)
    (isItem : Item target item) (right : Forest) (holder : NodeId) (count : Nat) :
    (left ++ (item ++ right)).placesFrom? target holder count 0 =
      some [⟨holder, left.width, count⟩] := by
  rw [placesFrom?_append_of_not_mem absent, Nat.zero_add]
  cases isItem <;> exact if_pos rfl

theorem placesFrom?_layer {row : Forest} {layer : Layer} {outer : List Layer} {inner : List Place}
    (outside : target ∉ Layer.ids (layer :: outer))
    (stands : row.placesFrom? target layer.id row.width 0 = some inner) :
    (layer.left ++ group layer.id row layer.right).placesFrom? target (Layer.holder outer)
        (layer.left ++ group layer.id row layer.right).width 0 =
      some (inner ++ [⟨Layer.holder outer, layer.left.width,
        layer.left.width + (layer.right.width + 1)⟩]) := by
  simp only [Layer.ids, List.mem_cons, List.mem_append, not_or] at outside
  obtain ⟨other, ⟨notLeft, _⟩, _⟩ := outside
  rw [placesFrom?_append_of_not_mem notLeft, placesFrom?, if_neg (Ne.symm other), stands,
    width_append, width_group, Nat.zero_add]

theorem placesFrom?_within {row : Forest} {layers : List Layer} {inner : List Place}
    (outside : target ∉ Layer.ids layers)
    (stands : row.placesFrom? target (Layer.holder layers) row.width 0 = some inner) :
    (row.within layers).placesFrom? target NodeId.root (row.within layers).width 0 =
      some (inner ++ Layer.places layers) := by
  induction layers generalizing row inner with
  | nil => rw [Layer.places, List.append_nil]; exact stands
  | cons layer outer ih =>
      have further : target ∉ Layer.ids outer := fun member =>
        outside (List.mem_cons_of_mem _ (List.mem_append_right _ member))
      rw [within, ih further (placesFrom?_layer outside stands), Layer.places, List.append_assoc,
        List.singleton_append]

/-! ## Rows -/

theorem within_cons (row : Forest) (layer : Layer) (outer : List Layer) :
    row.within (layer :: outer) =
      (layer.left ++ (group layer.id row nil ++ layer.right)).within outer := rfl

theorem members?_within {row : Forest} {layers : List Layer}
    (outside : target ∉ Layer.ids layers) :
    (row.within layers).members? target = row.members? target := by
  induction layers generalizing row with
  | nil => rfl
  | cons layer outer ih =>
      simp only [Layer.ids, List.mem_cons, List.mem_append, not_or] at outside
      obtain ⟨other, ⟨notLeft, notRight⟩, further⟩ := outside
      rw [within, ih further, members?_append, members?_group, if_neg (Ne.symm other),
        members?_eq_none notLeft, members?_eq_none notRight, Option.none_or, Option.or_none]

theorem take_append_width (left tail : Forest) : (left ++ tail).take left.width = left := by
  induction left with
  | nil => cases tail <;> rfl
  | clause id body rest ih => exact congrArg (clause id body) ih
  | group id members rest _ ih => exact congrArg (group id members) ih

theorem drop_append_width (left tail : Forest) (more : Nat) :
    (left ++ tail).drop (left.width + more) = tail.drop more := by
  induction left with
  | nil => rw [nil_append, width, heads, List.length_nil, Nat.zero_add]
  | clause id body rest ih => rw [clause_append, width_clause, Nat.add_right_comm, drop, ih]
  | group id members rest _ ih => rw [group_append, width_group, Nat.add_right_comm, drop, ih]

theorem eraseIdx_item {left item right : Forest} (isItem : Item target item) :
    (left ++ (item ++ right)).eraseIdx left.width = left ++ right := by
  rw [eraseIdx, take_append_width, drop_append_width]
  cases isItem <;> simp [drop]

end Forest

namespace Tree

inductive Around (tree : Tree) : NodeId → List NodeId → Prop
  | outermost {id} (up : tree.parent? id = some NodeId.root) : Around tree id []
  | inside {id group groups} (up : tree.parent? id = some group)
      (further : Around tree group groups) : Around tree id (group :: groups)

def Below (tree : Tree) (id group : NodeId) : Prop :=
  TransGen (fun node parent => tree.parent? node = some parent) id group

theorem groupDepth_le_depth (tree : Tree) (group : NodeId) :
    tree.groupDepth group ≤ tree.depth group := Nat.le_add_right _ _

namespace Sound

variable {tree : Tree} {row : Forest} {layers : List Layer}

/-! ## A node in its row -/

section Item

variable {left item right : Forest} {target : NodeId}

theorem places_item (sound : tree.Sound)
    (whole : tree.row = (left ++ (item ++ right)).within layers)
    (isItem : Forest.Item target item) :
    tree.places target =
      ⟨Layer.holder layers, left.width, left.width + (right.width + 1)⟩ :: Layer.places layers := by
  obtain ⟨outside, notLeft, _⟩ := Forest.not_mem_of_cut (whole ▸ sound.distinct) isItem
  have width : (left ++ (item ++ right)).width = left.width + (right.width + 1) := by
    cases isItem <;> simp
  have stands := Forest.placesFrom?_item notLeft isItem right (Layer.holder layers)
    (left ++ (item ++ right)).width
  rw [places, whole, Forest.places, Forest.placesFrom?_within outside stands, width]
  rfl

theorem parent?_item (sound : tree.Sound)
    (whole : tree.row = (left ++ (item ++ right)).within layers)
    (isItem : Forest.Item target item) :
    tree.parent? target = some (Layer.holder layers) := by
  rw [parent?, sound.places_item whole isItem]
  rfl

theorem groupDepth_item (sound : tree.Sound)
    (whole : tree.row = (left ++ (item ++ right)).within layers)
    (isItem : Forest.Item target item) :
    tree.groupDepth target = layers.length + 1 := by
  rw [groupDepth, sound.places_item whole isItem, List.length_cons, Layer.length_places]

end Item

/-! ## The group of a row -/

theorem ne_root_of_parent? (sound : tree.Sound) {id parent : NodeId}
    (up : tree.parent? id = some parent) : id ≠ NodeId.root := by
  rintro rfl
  exact sound.root_not_mem (sound.mem_ids_of_parent? up)

theorem groupDepth_root (sound : tree.Sound) : tree.groupDepth NodeId.root = 0 := by
  rw [groupDepth, places, Forest.places, Forest.placesFrom?_eq_none sound.root_not_mem]
  rfl

theorem groupDepth_holder (sound : tree.Sound) (whole : tree.row = row.within layers) :
    tree.groupDepth (Layer.holder layers) = layers.length := by
  cases layers with
  | nil => exact sound.groupDepth_root
  | cons layer outer =>
      rw [Forest.within_cons] at whole
      exact sound.groupDepth_item whole (.group row)

theorem row?_holder (sound : tree.Sound) (whole : tree.row = row.within layers) :
    tree.row? (Layer.holder layers) = some row := by
  cases layers with
  | nil => rw [Layer.holder, row?_root, whole, Forest.within]
  | cons layer outer =>
      rw [Forest.within_cons] at whole
      have inner := sound.ne_root_of_parent? (sound.parent?_item whole (.group row))
      obtain ⟨outside, notLeft, _⟩ := Forest.not_mem_of_cut (whole ▸ sound.distinct) (.group row)
      rw [Layer.holder, row?_of_ne inner, whole, Forest.members?_within outside,
        Forest.members?_append, Forest.members?_eq_none notLeft]
      exact if_pos rfl

theorem children_holder (sound : tree.Sound) (whole : tree.row = row.within layers) :
    tree.children (Layer.holder layers) = row.heads := by
  rw [children, sound.row?_holder whole, Option.getD_some]

theorem reach_holder (sound : tree.Sound) (whole : tree.row = row.within layers)
    (skip : Option Nat) :
    tree.reach (Layer.holder layers) skip =
      layers.length + (skip.elim row row.eraseIdx).height := by
  rw [reach, sound.groupDepth_holder whole, sound.row?_holder whole]
  rfl

theorem depth_holder (sound : tree.Sound) (whole : tree.row = row.within layers) :
    tree.depth (Layer.holder layers) = layers.length + row.height :=
  sound.reach_holder whole none

/-! ## Upwards from a node -/

variable {id parent group : NodeId} {groups : List NodeId}

theorem groupDepth_of_parent? (sound : tree.Sound) (up : tree.parent? id = some parent) :
    tree.groupDepth id = tree.groupDepth parent + 1 := by
  obtain ⟨left, item, right, layers, whole, isItem⟩ :=
    Forest.exists_cut (sound.mem_ids_of_parent? up)
  have held : Layer.holder layers = parent :=
    Option.some.inj ((sound.parent?_item whole isItem).symm.trans up)
  rw [sound.groupDepth_item whole isItem, ← held, sound.groupDepth_holder whole]

theorem groupDepth_lt_of_below (sound : tree.Sound) (below : tree.Below id group) :
    tree.groupDepth group < tree.groupDepth id := by
  induction below with
  | single up =>
      rw [sound.groupDepth_of_parent? up]
      exact Nat.lt_succ_self _
  | tail _ up ih =>
      rw [sound.groupDepth_of_parent? up] at ih
      exact Nat.lt_of_succ_lt ih

theorem around_item {left item right : Forest} (sound : tree.Sound)
    (whole : tree.row = (left ++ (item ++ right)).within layers) (isItem : Forest.Item id item) :
    tree.Around id (layers.map Layer.id) := by
  induction layers generalizing left item right id with
  | nil => exact .outermost (sound.parent?_item whole isItem)
  | cons layer outer ih =>
      have up := sound.parent?_item whole isItem
      rw [Forest.within_cons] at whole
      exact .inside up (ih whole (.group _))

theorem depth_le (sound : tree.Sound) (isGroup : tree.isGroup group = true) :
    tree.depth group ≤ tree.depth NodeId.root := by
  obtain ⟨row, found⟩ := Option.isSome_iff_exists.mp isGroup
  obtain ⟨layers, rfl, whole, _⟩ := sound.exists_layers found
  have deepest := row.height_add_length_le layers
  have top : tree.row = tree.row.within [] := rfl
  rw [sound.depth_holder whole, ← Layer.holder, sound.depth_holder top, List.length_nil, whole]
  omega

end Sound

namespace Around

variable {tree : Tree} {id group : NodeId} {groups : List NodeId}

theorem ne_root (around : tree.Around id groups) (sound : tree.Sound) : id ≠ NodeId.root := by
  cases around with
  | outermost up | inside up _ => exact sound.ne_root_of_parent? up

theorem eq_nil_of_parent? (around : tree.Around id groups) (sound : tree.Sound)
    (up : tree.parent? id = some NodeId.root) : groups = [] := by
  cases around with
  | outermost _ => rfl
  | inside above further =>
      cases Option.some.inj (above.symm.trans up)
      exact absurd rfl (further.ne_root sound)

theorem groupDepth_eq (around : tree.Around id groups) (sound : tree.Sound) :
    tree.groupDepth id = groups.length + 1 := by
  induction around with
  | outermost up => rw [sound.groupDepth_of_parent? up, sound.groupDepth_root, List.length_nil]
  | inside up _ ih => rw [sound.groupDepth_of_parent? up, ih, List.length_cons]

theorem mem_iff (around : tree.Around id groups) (sound : tree.Sound) :
    group ∈ groups ↔ group ≠ NodeId.root ∧ tree.Below id group := by
  constructor
  · intro member
    induction around with
    | outermost _ => exact absurd member List.not_mem_nil
    | inside up further ih =>
        rcases List.mem_cons.mp member with rfl | later
        · exact ⟨further.ne_root sound, TransGen.single up⟩
        · obtain ⟨inner, below⟩ := ih later
          exact ⟨inner, TransGen.head up below⟩
  · rintro ⟨inner, below⟩
    induction around with
    | outermost up =>
        obtain ⟨parent, step, beyond⟩ := TransGen.head'_iff.mp below
        cases Option.some.inj (step.symm.trans up)
        rcases reflTransGen_iff_eq_or_transGen.mp beyond with same | further
        · exact absurd same inner
        · obtain ⟨above, step, _⟩ := TransGen.head'_iff.mp further
          exact absurd rfl (sound.ne_root_of_parent? step)
    | inside up _ ih =>
        obtain ⟨parent, step, beyond⟩ := TransGen.head'_iff.mp below
        cases Option.some.inj (step.symm.trans up)
        rcases reflTransGen_iff_eq_or_transGen.mp beyond with same | further
        · exact same ▸ List.mem_cons_self
        · exact List.mem_cons_of_mem _ (ih further)

theorem nodup (around : tree.Around id groups) (sound : tree.Sound) : groups.Nodup := by
  induction around with
  | outermost _ => exact List.nodup_nil
  | inside _ further ih =>
      refine List.nodup_cons.mpr ⟨fun member => ?_, ih⟩
      have below := ((further.mem_iff sound).mp member).2
      exact Nat.lt_irrefl _ (sound.groupDepth_lt_of_below below)

theorem isGroup_of_mem (around : tree.Around id groups) (sound : tree.Sound)
    (member : group ∈ groups) : tree.isGroup group = true := by
  induction around with
  | outermost _ => exact absurd member List.not_mem_nil
  | inside up _ ih =>
      rcases List.mem_cons.mp member with rfl | later
      · exact isGroup_of_mem_children (sound.mem_children_iff_parent?.mpr up)
      · exact ih later

theorem parent?_getLast (around : tree.Around id groups) {top : NodeId}
    (last : groups.getLast? = some top) : tree.parent? top = some NodeId.root := by
  induction around with
  | outermost _ => cases last
  | inside up further ih =>
      cases further with
      | outermost up =>
          cases last
          exact up
      | inside up further => exact ih last

theorem getLast?_of_mem (around : tree.Around id groups) (sound : tree.Sound) {top : NodeId}
    (member : top ∈ groups) (up : tree.parent? top = some NodeId.root) :
    groups.getLast? = some top := by
  induction around with
  | outermost _ => exact absurd member List.not_mem_nil
  | inside _ further ih =>
      cases further with
      | outermost _ => rw [List.mem_singleton.mp member, List.getLast?_singleton]
      | inside above beyond =>
          rw [List.getLast?_cons_cons]
          rcases List.mem_cons.mp member with rfl | later
          · cases Option.some.inj (above.symm.trans up)
            exact absurd rfl (beyond.ne_root sound)
          · exact ih later

/-- The outermost of the groups is the one item of the root that the node is below. -/
theorem exists_top (around : tree.Around id groups) (sound : tree.Sound)
    (inside : tree.parent? id ≠ some NodeId.root) :
    ∃ top, groups.getLast? = some top ∧
      ∀ item, tree.parent? item = some NodeId.root ∧ tree.Below id item ↔ item = top := by
  cases last : groups.getLast? with
  | none =>
      rw [List.getLast?_eq_none_iff] at last
      subst last
      cases around with
      | outermost up => exact absurd up inside
  | some top =>
      refine ⟨top, rfl, fun item => ⟨?_, ?_⟩⟩
      · rintro ⟨up, below⟩
        have member := (around.mem_iff sound).mpr ⟨sound.ne_root_of_parent? up, below⟩
        exact Option.some.inj ((around.getLast?_of_mem sound member up).symm.trans last)
      · rintro rfl
        have member := List.mem_of_getLast? last
        exact ⟨around.parent?_getLast last, ((around.mem_iff sound).mp member).2⟩

end Around

end Tree

end WhereEditor
