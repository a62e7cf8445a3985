import Mathlib.Algebra.Ring.Nat
import Mathlib.Data.List.Dedup
import WhereEditor.Proofs.Draft.Rows

/-!
The brackets, the margin and the depth of a clause agree. From clause to clause the depth goes up by
the groups that open before a clause and down by those that close after it, and the margin of a
clause shows these groups and no others. Main statement: all of this in every tree that edits lead to.
-/

namespace WhereEditor

/-! ## Running depth -/

/-- The brackets of a row of clauses lead from one depth to another, and each clause lies as deep as
groups are open at it. -/
inductive Framed.Climbs (depthOf : NodeId × Clause → Nat) : Nat → List Framed → Nat → Prop
  | nil {level} : Climbs depthOf level [] level
  | cons {level next final framed later} (up : level + framed.opening = depthOf framed.entry)
      (down : next + framed.closing = level + framed.opening)
      (further : Climbs depthOf next later final) : Climbs depthOf level (framed :: later) final

namespace Framed.Climbs

variable {depthOf : NodeId × Clause → Nat} {level middle final : Nat} {row later : List Framed}

theorem append (first : Climbs depthOf level row middle)
    (second : Climbs depthOf middle later final) : Climbs depthOf level (row ++ later) final := by
  induction first with
  | nil => exact second
  | cons up down _ ih => exact .cons up down (ih second)

theorem modifyLast (climbs : Climbs depthOf level row (final + 1)) (inhabited : row ≠ []) :
    Climbs depthOf level
      (row.modifyLast fun framed => { framed with closing := framed.closing + 1 }) final := by
  obtain ⟨others, last, rfl⟩ := (List.eq_nil_or_concat row).resolve_left inhabited
  rw [List.concat_eq_append] at climbs ⊢
  rw [List.modifyLast_concat]
  clear inhabited
  induction others generalizing level with
  | nil =>
      cases climbs with
      | cons up down further =>
          cases further
          exact .cons up (by simp only; omega) .nil
  | cons first later ih =>
      cases climbs with
      | cons up down further => exact .cons up down (ih further)

theorem enclose (climbs : Climbs depthOf (level + 1) row (final + 1)) (inhabited : row ≠ []) :
    Climbs depthOf level (enclose row) final := by
  refine modifyLast ?_ (by simpa using inhabited)
  cases climbs with
  | nil => exact absurd rfl inhabited
  | cons up down further => exact .cons (by simp only; omega) (by simp only; omega) further

/-- The groups that have been opened and not closed are as many as the clause is deep. -/
theorem sum_eq {before : List Framed} {framed : Framed}
    (climbs : Climbs depthOf level (before ++ framed :: later) final) :
    level + ((before ++ [framed]).map Framed.opening).sum =
      (before.map Framed.closing).sum + depthOf framed.entry := by
  induction before generalizing level with
  | nil =>
      cases climbs with
      | cons up _ _ => simpa using up
  | cons first others ih =>
      cases climbs with
      | cons up down further =>
          have rest := ih further
          simp only [List.cons_append, List.map_cons, List.sum_cons] at rest ⊢
          omega

end Framed.Climbs

namespace Tree

variable {tree : Tree} {entry : NodeId × Clause}

theorem Sound.climbs (sound : tree.Sound) {layers : List Layer} (before row : Forest)
    (whole : tree.row = (before ++ row).within layers) :
    Framed.Climbs (fun entry => tree.clauseDepth entry.1) layers.length row.framed
      layers.length := by
  induction row generalizing before layers with
  | nil => exact .nil
  | clause id body rest ih =>
      have later := ih (before ++ .clause id body .nil) (by rw [Forest.append_assoc]; exact whole)
      have inRow : tree.row = (before ++ (.clause id body .nil ++ rest) : Forest).within layers :=
        whole
      have deep := sound.groupDepth_item inRow (.clause body)
      refine .cons ?_ rfl later
      rw [clauseDepth, ← groupDepth, deep]
      rfl
  | group id members rest inner ih =>
      have later := ih (before ++ .group id members .nil) (by rw [Forest.append_assoc]; exact whole)
      have inside : tree.row = (Forest.nil ++ members).within (⟨before, id, rest⟩ :: layers) :=
        whole
      obtain ⟨wide, occupied, _⟩ :=
        ((Forest.atLeast_append _ _).mp (sound.atLeast_row? (sound.row?_holder whole))).2
      have around := (inner .nil inside).enclose (Forest.framed_ne_nil occupied wide)
      exact around.append later

/-! ## Counting in the margin -/

theorem countP_isFirst_cellsOf (group : NodeId) (depth extra : Nat) (first last : Bool) :
    (cellsOf group depth extra first last).countP Cell.isFirst = if first then 1 else 0 := by
  rw [cellsOf, List.countP_map, List.range_succ_eq_map, List.countP_cons, List.countP_map]
  simp [Function.comp_def]

theorem countP_bottom_cellsOf (group : NodeId) (depth extra : Nat) (first last : Bool) :
    (cellsOf group depth extra first last).countP (fun cell => cell.hasLine && cell.hasBottom) =
      if last then 1 else 0 := by
  have before : ((List.range extra).countP fun step => step == extra && last) = 0 := by
    refine List.countP_eq_zero.mpr fun step member => ?_
    simp [Nat.ne_of_lt (List.mem_range.mp member)]
  rw [cellsOf, List.countP_map, List.range_succ, List.countP_append]
  simpa [Function.comp_def] using before

/-- Where the cells of a group hold one of a kind if the way up has kept to one side, the kind is
counted as far as the way keeps to it. -/
theorem countP_cellsFrom (tree : Tree) {test : Cell → Bool} (side : Bool → Bool → Bool)
    {edge : Place → Bool}
    (block : ∀ group depth extra first last,
      (cellsOf group depth extra first last).countP test = if side first last then 1 else 0)
    (outwards : ∀ first last place,
      side (first && place.isFirst) (last && place.isLast) = (side first last && edge place))
    (skip : Option Nat) (reached : Nat) (first last : Bool) (places : List Place) :
    (tree.cellsFrom skip reached first last places).countP test =
      if side first last then (places.dropLast.takeWhile edge).length else 0 := by
  induction places generalizing skip reached first last with
  | nil => simp [cellsFrom]
  | cons place beyond ih =>
      cases beyond with
      | nil => simp [cellsFrom]
      | cons outer further =>
          rw [cellsFrom, List.countP_append, block, ih, outwards, List.dropLast_cons_cons,
            List.takeWhile_cons]
          cases side first last <;> cases edge place <;> simp
          omega

namespace Sound

theorem countP_margin (sound : tree.Sound) (member : entry ∈ tree.clauses) {test : Cell → Bool}
    (blank : test Cell.empty = false) :
    (tree.margin entry.1).countP test =
      (tree.cellsFrom none ((tree.places entry.1).length - 1) true true
        (tree.places entry.1)).countP test := by
  obtain ⟨left, right, layers, whole⟩ := Forest.exists_cut_of_mem_clauses sound.distinct member
  obtain ⟨_, margin⟩ := sound.margin_eq rfl whole
  rw [margin, sound.cells_eq rfl whole, List.countP_append, List.countP_replicate,
    List.countP_reverse]
  simp [blank]

theorem countP_isFirst_margin (sound : tree.Sound) (member : entry ∈ tree.clauses) :
    (tree.margin entry.1).countP Cell.isFirst = tree.opening entry.1 := by
  rw [sound.countP_margin member rfl]
  exact tree.countP_cellsFrom (fun first _ => first) countP_isFirst_cellsOf (fun _ _ _ => rfl)
    none _ true true _

theorem countP_bottom_margin (sound : tree.Sound) (member : entry ∈ tree.clauses) :
    (tree.margin entry.1).countP (fun cell => cell.hasLine && cell.hasBottom) =
      tree.closing entry.1 := by
  rw [sound.countP_margin member rfl]
  exact tree.countP_cellsFrom (fun _ last => last) countP_bottom_cellsOf (fun _ _ _ => rfl)
    none _ true true _

end Sound

/-! ## The groups in the margin -/

theorem mem_filterMap_group {groups : List NodeId} {blocks : List (List Cell)} {group : NodeId}
    (drawn : List.Forall₂ tree.Block groups blocks) :
    group ∈ blocks.flatten.filterMap Cell.group ↔ group ∈ groups := by
  induction drawn with
  | nil => simp
  | @cons here cells groups blocks block further ih =>
      obtain ⟨inhabited, own⟩ := block
      rw [List.flatten_cons, List.filterMap_append, List.mem_append, ih, List.mem_cons]
      refine or_congr_left ?_
      rw [List.mem_filterMap]
      constructor
      · rintro ⟨cell, member, shown⟩
        exact Option.some.inj (shown.symm.trans (own cell member).1)
      · rintro rfl
        obtain ⟨cell, member⟩ := List.exists_mem_of_ne_nil _ inhabited
        exact ⟨cell, member, (own cell member).1⟩

theorem Sound.length_dedup_groups (sound : tree.Sound) {id : NodeId} (member : id ∈ tree.row.ids) :
    ((tree.margin id).filterMap Cell.group).dedup.length = tree.clauseDepth id := by
  obtain ⟨groups, blocks, around, drawn, _, margin⟩ := sound.exists_margin member
  have shown : ∀ group, group ∈ (tree.margin id).filterMap Cell.group ↔ group ∈ groups := by
    intro group
    have none_ : (List.replicate (tree.depth NodeId.root - blocks.flatten.length)
        Cell.empty).filterMap Cell.group = [] := by
      simp [Cell.empty]
    rw [margin, List.filterMap_append, none_, List.nil_append, List.filterMap_reverse,
      List.mem_reverse, mem_filterMap_group drawn.forall₂_block]
  have same : ((tree.margin id).filterMap Cell.group).dedup.Perm groups :=
    (List.perm_ext_iff_of_nodup (List.nodup_dedup _) (around.nodup sound)).mpr fun group => by
      rw [List.mem_dedup, shown]
  rw [same.length_eq, clauseDepth, ← groupDepth, around.groupDepth_eq sound, Nat.add_sub_cancel]

/-! ## Agreement -/

structure Levelled (tree : Tree) (before : List (NodeId × Clause)) (entry : NodeId × Clause) :
    Prop where
  opening : (tree.margin entry.1).countP Cell.isFirst = tree.opening entry.1
  closing : (tree.margin entry.1).countP (fun cell => cell.hasLine && cell.hasBottom) =
    tree.closing entry.1
  /-- The brackets that are open at the clause. -/
  running : ((before ++ [entry]).map fun entry => tree.opening entry.1).sum =
    (before.map fun entry => tree.closing entry.1).sum + tree.clauseDepth entry.1
  groups : ((tree.margin entry.1).filterMap Cell.group).dedup.length = tree.clauseDepth entry.1
  depth : ∀ parent, tree.parent? entry.1 = some parent →
    tree.groupDepth parent = tree.clauseDepth entry.1

theorem Sound.levelled (sound : tree.Sound) {before beyond : List (NodeId × Clause)}
    (whole : tree.clauses = before ++ entry :: beyond) : tree.Levelled before entry := by
  have member : entry ∈ tree.clauses := by simp [whole]
  refine ⟨sound.countP_isFirst_margin member, sound.countP_bottom_margin member, ?_,
    sound.length_dedup_groups (Forest.mem_ids_of_mem_clauses member), ?_⟩
  · have top : tree.row = (Forest.nil ++ tree.row).within [] := rfl
    have climbs := sound.climbs .nil tree.row top
    rw [sound.framed_eq, whole, List.map_append, List.map_cons] at climbs
    have sums := climbs.sum_eq
    simpa [Function.comp_def, frame] using sums
  · intro parent up
    rw [clauseDepth, ← groupDepth, sound.groupDepth_of_parent? up, Nat.add_sub_cancel]

end Tree

/-- In every tree that edits lead to, brackets, margin and depth agree at each clause, and it is shown
with that depth. -/
theorem Draft.levelled_after (edits : List Tree.Edit) {before beyond : List (NodeId × Clause)}
    {entry : NodeId × Clause} (whole : (Tree.after edits).clauses = before ++ entry :: beyond) :
    let tree := Tree.after edits
    tree.Levelled before entry ∧ ∀ settings, ∃ row,
      (Draft.mk settings tree).rows[before.length]? = some row ∧ row.id = entry.1 ∧
        row.groupDepth = tree.clauseDepth entry.1 := by
  intro tree
  refine ⟨(Tree.sound_after edits).levelled whole, fun settings => ?_⟩
  have here : tree.clauses[before.length]? = some entry := by
    rw [whole, List.getElem?_append_right (Nat.le_refl _), Nat.sub_self, List.getElem?_cons_zero]
  exact ⟨_, by rw [getElem?_rows, here, Option.map_some], rfl, rfl⟩

/-- The last of three clauses, where it is in a group within the group of all three. -/
theorem Draft.levelled_after_nested :
    let edits : List Tree.Edit := [.fresh, .fresh, .fresh, .mark 2, .mark 3, .group NodeId.root,
      .mark 1, .mark 2, .mark 3, .group NodeId.root]
    let before := [(1, Clause.blank .tables), (2, Clause.blank .tables)]
    let entry := (3, Clause.blank .tables)
    (Tree.after edits).clauses = before ++ entry :: [] ∧ (Tree.after edits).clauseDepth 3 = 2 ∧
      (Tree.after edits).Levelled before entry := by
  intro edits before entry
  have whole : (Tree.after edits).clauses = before ++ entry :: [] := by decide +kernel
  exact ⟨whole, by decide +kernel, (levelled_after edits whole).1⟩

end WhereEditor
