import Mathlib.Data.List.Forall2
import WhereEditor.Proofs.Tree.Ascent
import WhereEditor.Proofs.Tree.Frame
import WhereEditor.Tree.Margin

/-!
The columns of the margin. From a clause outwards, the cells that have been drawn when its way up
leaves a group are as many as the deepest group at or below that group lies within it, itself
counted, whichever branch the way has come from. Main statement: in every tree that edits lead to,
the margins of all clauses of a group have its line in one column.
-/

namespace WhereEditor

def LineAt (cells : List Cell) (group : NodeId) (index : Nat) : Prop :=
  ∃ cell, cells[index]? = some cell ∧ cell.group = some group ∧ cell.hasLine = true

namespace LineAt

variable {cells further : List Cell} {group : NodeId} {index : Nat}

theorem lt_length (line : LineAt cells group index) : index < cells.length := by
  obtain ⟨cell, found, _⟩ := line
  exact (List.getElem?_eq_some_iff.mp found).1

theorem append_iff : LineAt (cells ++ further) group index ↔
    LineAt cells group index ∨
      cells.length ≤ index ∧ LineAt further group (index - cells.length) := by
  by_cases early : index < cells.length
  · simp [LineAt, List.getElem?_append_left early, Nat.not_le.mpr early]
  · have late := Nat.not_lt.mp early
    simp [LineAt, List.getElem?_append_right late, late]

theorem reverse_iff (bound : index < cells.length) :
    LineAt cells.reverse group index ↔ LineAt cells group (cells.length - 1 - index) := by
  rw [LineAt, List.getElem?_reverse bound, LineAt]

theorem not_replicate_empty (count : Nat) :
    ¬ LineAt (List.replicate count Cell.empty) group index := by
  rintro ⟨cell, found, drawn, _⟩
  rw [List.eq_of_mem_replicate (List.mem_of_getElem? found)] at drawn
  cases drawn

end LineAt

namespace Tree

variable {tree : Tree} {group : NodeId} {index : Nat}

/-! ## The cells of one group -/

def Block (tree : Tree) (group : NodeId) (cells : List Cell) : Prop :=
  cells ≠ [] ∧ ∀ cell ∈ cells, cell.group = some group ∧ cell.depth = tree.groupDepth group

theorem Block.reverse {cells : List Cell} (block : tree.Block group cells) :
    tree.Block group cells.reverse :=
  ⟨by simpa using block.1, fun cell member => block.2 cell (List.mem_reverse.mp member)⟩

theorem length_cellsOf (group : NodeId) (depth extra : Nat) (first last : Bool) :
    (cellsOf group depth extra first last).length = extra + 1 := by
  simp [cellsOf]

theorem block_cellsOf (tree : Tree) (group : NodeId) (extra : Nat) (first last : Bool) :
    tree.Block group (cellsOf group (tree.groupDepth group) extra first last) := by
  constructor
  · rw [← List.length_pos_iff, length_cellsOf]
    exact Nat.succ_pos extra
  · intro cell member
    obtain ⟨step, _, rfl⟩ := List.mem_map.mp member
    exact ⟨rfl, rfl⟩

theorem lineAt_cellsOf_iff {here : NodeId} {depth extra : Nat} {first last : Bool} :
    LineAt (cellsOf here depth extra first last) group index ↔ here = group ∧ index = extra := by
  by_cases bound : index < extra + 1
  · simp [LineAt, cellsOf, List.getElem?_range bound]
  · have outside : index ≠ extra := by omega
    have beyond : (List.range (extra + 1))[index]? = none := by simpa using bound
    simp [LineAt, cellsOf, beyond, outside]

/-! ## Groups from the inside out -/

/-- One block of cells for each of the groups around a node, where `done` cells have been drawn: the
last cell of a block stands as far out as its group is high. -/
inductive Drawn (tree : Tree) : Nat → List NodeId → List (List Cell) → Prop
  | nil {done} : Drawn tree done [] []
  | cons {done group groups extra first last blocks}
      (reaches : done + extra = tree.depth group - tree.groupDepth group)
      (further : Drawn tree (done + extra + 1) groups blocks) :
      Drawn tree done (group :: groups)
        (cellsOf group (tree.groupDepth group) extra first last :: blocks)

namespace Drawn

variable {done : Nat} {groups : List NodeId} {blocks : List (List Cell)}

theorem forall₂_block (drawn : tree.Drawn done groups blocks) :
    List.Forall₂ tree.Block groups blocks := by
  induction drawn with
  | nil => exact .nil
  | cons _ _ ih => exact .cons (tree.block_cellsOf _ _ _ _) ih

theorem le_of_mem (drawn : tree.Drawn done groups blocks) (member : group ∈ groups) :
    done ≤ tree.depth group - tree.groupDepth group := by
  induction drawn with
  | nil => exact absurd member List.not_mem_nil
  | cons reaches _ ih =>
      rcases List.mem_cons.mp member with rfl | later
      · omega
      · have beyond := ih later
        omega

theorem mem_of_lineAt (drawn : tree.Drawn done groups blocks)
    (line : LineAt blocks.flatten group index) : group ∈ groups := by
  induction drawn generalizing index with
  | nil => obtain ⟨_, found, _⟩ := line; cases found
  | cons _ _ ih =>
      rw [List.flatten_cons, LineAt.append_iff, lineAt_cellsOf_iff] at line
      rcases line with ⟨rfl, _⟩ | ⟨_, later⟩
      · exact List.mem_cons_self
      · exact List.mem_cons_of_mem _ (ih later)

theorem lineAt_iff (drawn : tree.Drawn done groups blocks) (distinct : groups.Nodup)
    (member : group ∈ groups) :
    LineAt blocks.flatten group index ↔
      done + index = tree.depth group - tree.groupDepth group := by
  induction drawn generalizing index with
  | nil => exact absurd member List.not_mem_nil
  | @cons done here groups extra first last blocks reaches further ih =>
      obtain ⟨fresh, restDistinct⟩ := List.nodup_cons.mp distinct
      rw [List.flatten_cons, LineAt.append_iff, lineAt_cellsOf_iff, length_cellsOf]
      rcases List.mem_cons.mp member with rfl | later
      · have nowhere : ¬ LineAt blocks.flatten group (index - (extra + 1)) :=
          fun line => fresh (further.mem_of_lineAt line)
        simp only [nowhere, and_false, or_false, true_and]
        omega
      · have other : here ≠ group := fun same => fresh (same ▸ later)
        have beyond := further.le_of_mem later
        simp only [other, false_and, false_or, ih restDistinct later]
        omega

theorem length_flatten (drawn : tree.Drawn done groups blocks) {top : NodeId}
    (last : groups.getLast? = some top) :
    done + blocks.flatten.length = tree.depth top - tree.groupDepth top + 1 := by
  induction drawn with
  | nil => cases last
  | @cons done here groups extra first last blocks reaches further ih =>
      rw [List.flatten_cons, List.length_append, length_cellsOf]
      cases groups with
      | nil =>
          cases further
          cases last
          simp
          omega
      | cons next outer =>
          have beyond := ih last
          omega

theorem lineAt_margin_iff (drawn : tree.Drawn 0 groups blocks) (distinct : groups.Nodup)
    (member : group ∈ groups) {width : Nat} (fits : blocks.flatten.length ≤ width) :
    LineAt (List.replicate (width - blocks.flatten.length) Cell.empty ++ blocks.flatten.reverse)
        group index ↔
      index = width - 1 - (tree.depth group - tree.groupDepth group) := by
  have onward : ∀ step, LineAt blocks.flatten group step ↔
      step = tree.depth group - tree.groupDepth group := by
    intro step
    rw [drawn.lineAt_iff distinct member, Nat.zero_add]
  have inside := ((onward _).mpr rfl).lt_length
  rw [LineAt.append_iff, List.length_replicate]
  simp only [LineAt.not_replicate_empty, false_or]
  by_cases bound : index - (width - blocks.flatten.length) < blocks.flatten.length
  · rw [LineAt.reverse_iff bound, onward]
    omega
  · have beyond : ¬ LineAt blocks.flatten.reverse group
        (index - (width - blocks.flatten.length)) := fun line =>
      bound (List.length_reverse ▸ line.lt_length)
    simp only [beyond, and_false, false_iff]
    omega

theorem length_flatten_of_top (drawn : tree.Drawn 0 groups blocks) (sound : tree.Sound)
    {top : NodeId} (last : groups.getLast? = some top) (up : tree.parent? top = some NodeId.root) :
    blocks.flatten.length = tree.depth top := by
  have own := sound.groupDepth_of_parent? up
  have deeper := tree.groupDepth_le_depth top
  have length := drawn.length_flatten last
  rw [sound.groupDepth_root] at own
  omega

theorem length_flatten_le (drawn : tree.Drawn 0 groups blocks) {id : NodeId}
    (around : tree.Around id groups) (sound : tree.Sound) :
    blocks.flatten.length ≤ tree.depth NodeId.root := by
  cases last : groups.getLast? with
  | none =>
      rw [List.getLast?_eq_none_iff] at last
      subst last
      cases drawn
      exact Nat.zero_le _
  | some top =>
      have up := around.parent?_getLast last
      rw [drawn.length_flatten_of_top sound last up]
      exact sound.depth_le (around.isGroup_of_mem sound (List.mem_of_getLast? last))

end Drawn

/-! ## The way up -/

namespace Sound

variable {row : Forest} {layers : List Layer}

/-- A group is as deep as its member on the way up, or as the deepest of the other members. -/
theorem max_depth_reach (sound : tree.Sound) {layer : Layer} {outer : List Layer}
    (whole : tree.row = row.within (layer :: outer)) :
    max (tree.depth layer.id) (tree.reach (Layer.holder outer) (some layer.left.width)) =
      tree.depth (Layer.holder outer) := by
  have deep := sound.depth_holder whole
  rw [Forest.within_cons] at whole
  have others := sound.reach_holder whole (some layer.left.width)
  rw [Option.elim_some, Forest.eraseIdx_item (.group row)] at others
  rw [sound.depth_holder whole, others, ← Layer.holder, deep, List.length_cons]
  simp only [Forest.height_append, Forest.height]
  omega

/-- What carries the way up: the depth reached so far and that of what is not skipped together are
the depth of the group, and as many cells have been drawn as the depth reached exceeds the group's
own. -/
theorem exists_drawn (sound : tree.Sound) (whole : tree.row = row.within layers) (place : Place)
    (stands : place.holder = Layer.holder layers) {skip : Option Nat} {reached : Nat}
    (above : layers.length ≤ reached)
    (covers : max reached (tree.reach (Layer.holder layers) skip) =
      tree.depth (Layer.holder layers)) (first last : Bool) :
    ∃ blocks, tree.cellsFrom skip reached first last (place :: Layer.places layers) =
        blocks.flatten ∧
      tree.Drawn (reached - layers.length) (layers.map Layer.id) blocks := by
  induction layers generalizing row place skip reached first last with
  | nil => exact ⟨[], rfl, .nil⟩
  | cons layer outer ih =>
      have own := sound.groupDepth_holder whole
      have deep := sound.depth_holder whole
      have deepens := sound.max_depth_reach whole
      rw [Layer.holder] at stands covers own deep
      rw [List.length_cons] at above own deep
      rw [← covers] at deepens
      rw [Forest.within_cons] at whole
      obtain ⟨blocks, cells, drawn⟩ := ih whole
        ⟨Layer.holder outer, layer.left.width, layer.left.width + (layer.right.width + 1)⟩ rfl
        (by omega) deepens (first && place.isFirst) (last && place.isLast)
      have reaches : reached - (outer.length + 1) + (tree.reach layer.id skip - reached) =
          tree.depth layer.id - tree.groupDepth layer.id := by
        omega
      have count : max reached (tree.reach layer.id skip) - outer.length =
          reached - (outer.length + 1) + (tree.reach layer.id skip - reached) + 1 := by
        omega
      rw [count] at drawn
      refine ⟨cellsOf layer.id (tree.groupDepth layer.id) (tree.reach layer.id skip - reached)
        (first && place.isFirst) (last && place.isLast) :: blocks, ?_, .cons reaches drawn⟩
      rw [Layer.places, cellsFrom, stands, cells]
      rfl

theorem exists_margin (sound : tree.Sound) {id : NodeId} (member : id ∈ tree.row.ids) :
    ∃ groups blocks, tree.Around id groups ∧ tree.Drawn 0 groups blocks ∧
      blocks.flatten.length ≤ tree.depth NodeId.root ∧
      tree.margin id =
        List.replicate (tree.depth NodeId.root - blocks.flatten.length) Cell.empty ++
          blocks.flatten.reverse := by
  obtain ⟨left, item, right, layers, whole, isItem⟩ := Forest.exists_cut member
  have around := sound.around_item whole isItem
  have covers : max layers.length (tree.reach (Layer.holder layers) none) =
      tree.depth (Layer.holder layers) := by
    have own := sound.groupDepth_holder whole
    have deeper := tree.groupDepth_le_depth (Layer.holder layers)
    rw [depth] at deeper ⊢
    omega
  obtain ⟨blocks, cells, drawn⟩ := sound.exists_drawn whole
    ⟨Layer.holder layers, left.width, left.width + (right.width + 1)⟩ rfl (Nat.le_refl _) covers
    true true
  rw [Nat.sub_self] at drawn
  have fits := drawn.length_flatten_le around sound
  refine ⟨layers.map Layer.id, blocks, around, drawn, fits, ?_⟩
  simp only [margin, sound.places_item whole isItem, List.length_cons, Layer.length_places,
    Nat.add_sub_cancel, cells, List.take_of_length_le fits]

end Sound

/-! ## Columns -/

structure Aligned (tree : Tree) (id : NodeId) : Prop where
  width : (tree.margin id).length = tree.depth NodeId.root
  outside : tree.parent? id = some NodeId.root →
    tree.margin id = List.replicate (tree.depth NodeId.root) Cell.empty
  /-- The cells of the groups take as much room as the outermost of them is deep. -/
  inside : tree.parent? id ≠ some NodeId.root →
    ∃ top groups blocks,
      (∀ item, tree.parent? item = some NodeId.root ∧ tree.Below id item ↔ item = top) ∧
        tree.Around id groups ∧ groups.Nodup ∧ List.Forall₂ tree.Block groups.reverse blocks ∧
        blocks.flatten.length = tree.depth top ∧
        tree.margin id =
          List.replicate (tree.depth NodeId.root - tree.depth top) Cell.empty ++ blocks.flatten
  /-- The column of a group's line depends on the group alone. -/
  line : ∀ group, group ≠ NodeId.root → tree.Below id group → ∀ index,
    LineAt (tree.margin id) group index ↔
      index = tree.depth NodeId.root - 1 - (tree.depth group - tree.groupDepth group)

theorem Sound.aligned (sound : tree.Sound) {id : NodeId} (member : id ∈ tree.row.ids) :
    tree.Aligned id := by
  obtain ⟨groups, blocks, around, drawn, fits, margin⟩ := sound.exists_margin member
  have distinct := around.nodup sound
  refine ⟨?_, ?_, ?_, ?_⟩
  · rw [margin, List.length_append, List.length_replicate, List.length_reverse]
    omega
  · intro up
    have none := around.eq_nil_of_parent? sound up
    subst none
    cases drawn
    simpa using margin
  · intro inside
    obtain ⟨top, last, outermost⟩ := around.exists_top sound inside
    have room := drawn.length_flatten_of_top sound last ((outermost top).mpr rfl).1
    refine ⟨top, groups, (blocks.map List.reverse).reverse, outermost, around, distinct, ?_, ?_, ?_⟩
    · rw [List.forall₂_reverse_iff, List.forall₂_map_right_iff]
      exact drawn.forall₂_block.imp fun _ _ block => block.reverse
    · rw [← List.reverse_flatten, List.length_reverse, room]
    · rw [margin, room, List.reverse_flatten]
  · intro group inner below index
    rw [margin, drawn.lineAt_margin_iff distinct ((around.mem_iff sound).mpr ⟨inner, below⟩) fits]

/-- In every tree that edits lead to, the margins of the clauses line up. -/
theorem aligned_after (edits : List Edit) {entry : NodeId × Clause}
    (member : entry ∈ (after edits).clauses) : (after edits).Aligned entry.1 :=
  (sound_after edits).aligned (Forest.mem_ids_of_mem_clauses member)

/-- The first of three clauses, where the other two are a group within the group of all three. -/
theorem aligned_after_deeper_sibling :
    let edits : List Edit := [.fresh, .fresh, .fresh, .mark 2, .mark 3, .group NodeId.root,
      .mark 1, .mark 2, .mark 3, .group NodeId.root]
    (1, Clause.blank .tables) ∈ (after edits).clauses ∧ (after edits).Aligned 1 := by
  intro edits
  have member : (1, Clause.blank .tables) ∈ (after edits).clauses := by decide +kernel
  exact ⟨member, aligned_after edits member⟩

end Tree

end WhereEditor
