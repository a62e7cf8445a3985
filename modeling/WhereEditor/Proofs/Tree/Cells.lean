import WhereEditor.Proofs.Support
import WhereEditor.Proofs.Tree.Columns
import WhereEditor.Proofs.Tree.Descent

/-!
The cells of a margin in closed form. Each group fills the columns that its other branches need
beyond the one that the clause is in, and knows of the clause whether it is the first or the last in
it. Main statement: the cell in which the line of a group is drawn, at each clause below the group.
-/

namespace WhereEditor

namespace Forest

/-! ## A clause in its row -/

section Edge

variable {row : Forest} {entry : NodeId × Clause} {holder : NodeId} {places : List Place}

theorem all_isFirst_eq (distinct : row.ids.Nodup) (occupied : row.AtLeast 1)
    (member : entry ∈ row.clauses)
    (stands : row.placesFrom? entry.1 holder row.width 0 = some places) :
    places.all Place.isFirst = decide (row.clauses.head? = some entry) := by
  rw [Bool.eq_iff_iff, all_isFirst_iff distinct occupied member stands]
  simp

theorem all_isLast_eq (distinct : row.ids.Nodup) (occupied : row.AtLeast 1)
    (member : entry ∈ row.clauses)
    (stands : row.placesFrom? entry.1 holder row.width 0 = some places) :
    places.all Place.isLast = decide (row.clauses.getLast? = some entry) := by
  rw [Bool.eq_iff_iff, all_isLast_iff distinct occupied member (Nat.zero_add _) stands]
  simp

end Edge

structure Cut (row : Forest) (entry : NodeId × Clause) where
  left : Forest
  item : Forest
  right : Forest
  id : NodeId
  whole : row = left ++ (item ++ right)
  isItem : Item id item
  member : entry ∈ item.clauses

namespace Cut

variable {row : Forest} {entry : NodeId × Clause}

theorem mem_clauses (cut : row.Cut entry) : entry ∈ row.clauses := by
  simp [cut.whole, cut.member]

theorem height_item_le (cut : row.Cut entry) : cut.item.height ≤ row.height := by
  have height := congrArg Forest.height cut.whole
  simp only [height_append] at height
  omega

theorem left_eq_nil (cut : row.Cut entry) (distinct : row.ids.Nodup) (occupied : row.AtLeast 1)
    (first : row.clauses.head? = some entry) : cut.left = nil := by
  have clauses := nodup_clauses distinct
  rw [cut.whole, clauses_append] at clauses first
  rw [cut.whole, atLeast_append] at occupied
  rcases eq_nil_or_clauses_ne_nil cut.left occupied.1 with empty | ⟨_, inhabited⟩
  · exact empty
  · rw [List.head?_append_of_ne_nil _ inhabited] at first
    have here : entry ∈ (cut.item ++ cut.right).clauses := by simp [cut.member]
    have early := List.mem_of_mem_head? first
    exact absurd rfl ((List.nodup_append.mp clauses).2.2 entry early entry here)

theorem take_one_eq (cut : row.Cut entry) (leading : cut.left = nil) : row.take 1 = cut.item := by
  have one : cut.item.width = 1 := congrArg List.length cut.isItem.heads
  have first := take_append_width cut.item cut.right
  rw [one] at first
  exact (congrArg (Forest.take · 1) (cut.whole.trans (by rw [leading, nil_append]))).trans first

/-- The branch of the first clause lacks nothing exactly if no item is higher than the first. -/
theorem lacks_nothing_iff (cut : row.Cut entry) (distinct : row.ids.Nodup)
    (occupied : row.AtLeast 1) (first : row.clauses.head? = some entry) :
    row.height - cut.item.height = 0 ↔ (row.take 1).height = row.height := by
  have lower := cut.height_item_le
  rw [cut.take_one_eq (cut.left_eq_nil distinct occupied first)]
  omega

def ofClause (entry : NodeId × Clause) (left right : Forest) :
    (left ++ (clause entry.1 entry.2 nil ++ right)).Cut entry where
  left := left
  item := clause entry.1 entry.2 nil
  right := right
  id := entry.1
  whole := rfl
  isItem := .clause entry.2
  member := List.mem_cons_self

def outwards (cut : row.Cut entry) (layer : Layer) :
    (layer.left ++ group layer.id row layer.right).Cut entry where
  left := layer.left
  item := group layer.id row nil
  right := layer.right
  id := layer.id
  whole := rfl
  isItem := .group row
  member := by simp [clauses, cut.mem_clauses]

theorem height_outwards (cut : row.Cut entry) (layer : Layer) :
    (cut.outwards layer).item.height = row.height + 1 := by
  rw [outwards, height, height, Nat.max_zero]

end Cut

end Forest

namespace Tree

variable {tree : Tree} {row left right : Forest} {layers inner outer : List Layer} {layer : Layer}
  {entry : NodeId × Clause} {group : NodeId} {branch : Nat}

def DeepestFirst (tree : Tree) (group : NodeId) : Prop :=
  let row := (tree.row? group).getD .nil
  (row.take 1).height = row.height

instance (tree : Tree) (group : NodeId) : Decidable (tree.DeepestFirst group) :=
  inferInstanceAs (Decidable (_ = _))

/-- The cells of the groups around a branch of a row, from it outwards: as many of each group as the
branch lacks of the height of the group's row, and one more. -/
def cellsWithin (entry : NodeId × Clause) (branch : Nat) (row : Forest) : List Layer → List Cell
  | [] => []
  | layer :: outer =>
      cellsOf layer.id (outer.length + 1) (row.height - branch)
          (row.clauses.head? = some entry) (row.clauses.getLast? = some entry) ++
        cellsWithin entry (row.height + 1) (layer.left ++ .group layer.id row layer.right) outer

theorem length_cellsWithin_le (lower : branch ≤ row.height) :
    branch + (cellsWithin entry branch row layers).length ≤ (row.within layers).height := by
  induction layers generalizing row branch with
  | nil => exact lower
  | cons layer outer ih =>
      have higher : row.height + 1 ≤
          (layer.left ++ .group layer.id row layer.right : Forest).height := by
        simp only [Forest.height_append, Forest.height]
        omega
      have beyond := ih higher
      rw [cellsWithin, List.length_append, length_cellsOf, Forest.within]
      omega

/-- The block of cells of a group fills what the item on the way up lacks of its row's height. -/
theorem exists_block_cellsWithin (cut : row.Cut entry) (inner : List Layer) (layer : Layer)
    (outer : List Layer) :
    ∃ (above : (row.within inner).Cut entry) (before beyond : List Cell),
      cut.item.height + before.length = above.item.height ∧
        cellsWithin entry cut.item.height row (inner ++ layer :: outer) =
          before ++ (cellsOf layer.id (outer.length + 1)
            ((row.within inner).height - above.item.height)
            ((row.within inner).clauses.head? = some entry)
            ((row.within inner).clauses.getLast? = some entry) ++ beyond) := by
  induction inner generalizing row with
  | nil => exact ⟨cut, [], _, rfl, rfl⟩
  | cons nearest further ih =>
      obtain ⟨above, before, beyond, reached, cells⟩ := ih (cut.outwards nearest)
      have lower := cut.height_item_le
      rw [cut.height_outwards] at reached cells
      refine ⟨above, cellsOf nearest.id ((further ++ layer :: outer).length + 1)
        (row.height - cut.item.height) (row.clauses.head? = some entry)
        (row.clauses.getLast? = some entry) ++ before, beyond, ?_, ?_⟩
      · rw [List.length_append, length_cellsOf]
        omega
      · rw [List.cons_append, cellsWithin, List.append_assoc]
        exact congrArg _ cells

theorem getElem?_cellsOf (group : NodeId) (depth extra : Nat) (first last : Bool) :
    (cellsOf group depth extra first last)[extra]? =
      some { group := some group, depth, isFirst := extra == 0 && first, hasTop := first,
             hasBottom := last, hasLine := true } := by
  simp [cellsOf]

namespace Sound

/-- One layer further out, the depth reached so far and that of the other items are again the depth
of the group. -/
theorem covers_outwards (sound : tree.Sound) (whole : tree.row = row.within (layer :: outer)) :
    max (outer.length + (row.height + 1))
        (tree.reach (Layer.holder outer) (some layer.left.width)) =
      outer.length + (layer.left ++ .group layer.id row layer.right : Forest).height := by
  have deep := sound.depth_holder whole
  have around := sound.max_depth_reach whole
  rw [Layer.holder, List.length_cons] at deep
  rw [Forest.within] at whole
  rw [deep, sound.depth_holder whole] at around
  omega

theorem cellsFrom_eq (sound : tree.Sound) (whole : tree.row = row.within layers)
    (member : entry ∈ row.clauses) {places : List Place} {place : Place}
    (held : place.holder = Layer.holder layers)
    (stands : row.placesFrom? entry.1 (Layer.holder layers) row.width 0 = some (places ++ [place]))
    {skip : Option Nat} (covers : max (layers.length + branch)
      (tree.reach (Layer.holder layers) skip) = layers.length + row.height) :
    tree.cellsFrom skip (layers.length + branch) (places.all Place.isFirst)
        (places.all Place.isLast) (place :: Layer.places layers) =
      cellsWithin entry branch row layers := by
  induction layers generalizing row places place skip branch with
  | nil => rfl
  | cons layer outer ih =>
      have own := sound.groupDepth_holder whole
      have occupied := sound.atLeast_row? (sound.row?_holder whole)
      obtain ⟨distinct, _, apart⟩ := Forest.nodup_within_iff.mp (whole ▸ sound.distinct)
      have outside := apart entry.1 (Forest.mem_ids_of_mem_clauses member)
      have front := Forest.all_isFirst_eq distinct occupied member stands
      have back := Forest.all_isLast_eq distinct occupied member stands
      have further := sound.covers_outwards whole
      rw [Layer.holder] at held stands covers own
      rw [List.length_cons] at covers own
      rw [Forest.within] at whole
      have beyond := ih whole (by simp [Forest.clauses, member]) rfl
        (Forest.placesFrom?_layer outside stands) further
      have extra : tree.reach layer.id skip - (outer.length + 1 + branch) =
          row.height - branch := by
        omega
      have reached : max (outer.length + 1 + branch) (tree.reach layer.id skip) =
          outer.length + (row.height + 1) := by
        omega
      rw [front, back] at beyond
      rw [List.all_append, List.all_cons, List.all_nil, Bool.and_true] at front back
      rw [Layer.places, cellsFrom, cellsWithin, held, List.length_cons, own, extra, reached, front,
        back]
      exact congrArg _ beyond

section Clause

variable (sound : tree.Sound) (cut : row = left ++ (.clause entry.1 entry.2 .nil ++ right))
  (whole : tree.row = row.within layers)

include sound cut whole

theorem cells_eq :
    tree.cellsFrom none ((tree.places entry.1).length - 1) true true (tree.places entry.1) =
      cellsWithin entry 0 row layers := by
  have isItem : Forest.Item entry.1 (.clause entry.1 entry.2 .nil) := .clause entry.2
  have inTree : tree.row =
      (left ++ (.clause entry.1 entry.2 .nil ++ right) : Forest).within layers := cut ▸ whole
  obtain ⟨_, notLeft, _⟩ := Forest.not_mem_of_cut (inTree ▸ sound.distinct) isItem
  have width : row.width = left.width + (right.width + 1) := by simp [cut]
  have stands : row.placesFrom? entry.1 (Layer.holder layers) row.width 0 =
      some ([] ++ [⟨Layer.holder layers, left.width, row.width⟩]) := by
    rw [cut]
    exact Forest.placesFrom?_item notLeft isItem right (Layer.holder layers) _
  have covers : max (layers.length + 0) (tree.reach (Layer.holder layers) none) =
      layers.length + row.height := by
    have deep := sound.depth_holder whole
    rw [depth] at deep
    omega
  have drawn := sound.cellsFrom_eq whole (by simp [cut, Forest.clauses]) rfl stands covers
  rw [width] at drawn
  rw [sound.places_item inTree isItem, List.length_cons, Layer.length_places, Nat.add_sub_cancel]
  exact drawn

theorem margin_eq :
    let cells := cellsWithin entry 0 row layers
    cells.length ≤ tree.depth NodeId.root ∧
      tree.margin entry.1 =
        List.replicate (tree.depth NodeId.root - cells.length) Cell.empty ++ cells.reverse := by
  intro cells
  have drawn := sound.cells_eq cut whole
  have fits : cells.length ≤ tree.depth NodeId.root := by
    have length : 0 + cells.length ≤ _ := length_cellsWithin_le (Nat.zero_le row.height)
    have top : tree.row = tree.row.within [] := rfl
    have deepest := sound.depth_holder top
    rw [Layer.holder, List.length_nil, whole] at deepest
    omega
  refine ⟨fits, ?_⟩
  simp only [margin, drawn]
  rw [List.take_of_length_le fits]

end Clause

theorem exists_block_margin (sound : tree.Sound) (inner : group ≠ NodeId.root)
    (found : tree.row? group = some row) (member : entry ∈ row.clauses) :
    ∃ (cut : row.Cut entry) (before beyond cells : List Cell),
      before.length = cut.item.height ∧
        cells = before ++ (cellsOf group (tree.groupDepth group) (row.height - cut.item.height)
          (row.clauses.head? = some entry) (row.clauses.getLast? = some entry) ++ beyond) ∧
        cells.length ≤ tree.depth NodeId.root ∧
        tree.margin entry.1 =
          List.replicate (tree.depth NodeId.root - cells.length) Cell.empty ++ cells.reverse := by
  obtain ⟨layers, rfl, around, _⟩ := sound.exists_layers found
  obtain ⟨layer, outer, rfl⟩ : ∃ layer outer, layers = layer :: outer := by
    cases layers with
    | nil => exact absurd rfl inner
    | cons layer outer => exact ⟨layer, outer, rfl⟩
  have own := sound.groupDepth_holder around
  obtain ⟨distinct, _, _⟩ := Forest.nodup_within_iff.mp (around ▸ sound.distinct)
  obtain ⟨left, right, inside, rfl⟩ := Forest.exists_cut_of_mem_clauses distinct member
  obtain ⟨cut, before, beyond, reached, cells⟩ := exists_block_cellsWithin
    (.ofClause entry left right) inside layer outer
  rw [← Forest.within_append] at around
  obtain ⟨fits, margin⟩ := sound.margin_eq rfl around
  refine ⟨cut, before, beyond, _, ?_, ?_, fits, margin⟩
  · simpa [Forest.Cut.ofClause, Forest.height] using reached
  · rw [own]
    exact cells

/-- The cell in which the line of a group is drawn. It is a first one only where the clause is the
first of the group and no other branch of the group is deeper. -/
theorem getElem?_margin (sound : tree.Sound) (inner : group ≠ NodeId.root)
    (below : entry ∈ tree.clausesBelow group) :
    (tree.margin entry.1)[tree.depth NodeId.root - 1 -
        (tree.depth group - tree.groupDepth group)]? =
      some { group := some group, depth := tree.groupDepth group,
             isFirst := (tree.clausesBelow group).head? = some entry ∧ tree.DeepestFirst group,
             hasTop := (tree.clausesBelow group).head? = some entry,
             hasBottom := (tree.clausesBelow group).getLast? = some entry, hasLine := true } := by
  obtain ⟨row, found⟩ : ∃ row, tree.row? group = some row :=
    Option.isSome_iff_exists.mp (sound.isGroup_of_below (sound.mem_clausesBelow_iff.mp below).2)
  have clauses : tree.clausesBelow group = row.clauses := by
    rw [clausesBelow, found, Option.getD_some]
  have leads : tree.DeepestFirst group ↔ (row.take 1).height = row.height := by
    rw [DeepestFirst, found, Option.getD_some]
  rw [clauses] at below
  simp only [clauses, leads]
  obtain ⟨layers, _, around, _⟩ := sound.exists_layers found
  obtain ⟨distinct, _, _⟩ := Forest.nodup_within_iff.mp (around ▸ sound.distinct)
  have occupied := sound.atLeast_row? found
  obtain ⟨cut, before, beyond, cells, reached, split, fits, margin⟩ :=
    sound.exists_block_margin inner found below
  have leading : (row.height - cut.item.height == 0 && decide (row.clauses.head? = some entry)) =
      decide (row.clauses.head? = some entry ∧ (row.take 1).height = row.height) := by
    rw [Bool.eq_iff_iff, Bool.and_eq_true, beq_iff_eq, decide_eq_true_iff, decide_eq_true_iff,
      and_comm]
    exact and_congr_right fun first => cut.lacks_nothing_iff distinct occupied first
  have lower := cut.height_item_le
  have column : tree.depth group - tree.groupDepth group =
      before.length + (row.height - cut.item.height) := by
    have deep : tree.depth group = tree.groupDepth group + row.height := by
      rw [depth, reach, found]
      rfl
    omega
  have length := congrArg List.length split
  simp only [List.length_append, length_cellsOf] at length
  rw [margin, column, getElem?_padded _ (by omega) fits, split,
    List.getElem?_append_right (by omega), Nat.add_sub_cancel_left,
    List.getElem?_append_left (by rw [length_cellsOf]; omega), getElem?_cellsOf, leading]

end Sound

end Tree

end WhereEditor
