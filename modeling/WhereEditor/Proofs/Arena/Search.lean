import WhereEditor.Proofs.Arena.Bounds
import WhereEditor.Proofs.Query.Nesting
import WhereEditor.Proofs.Tree.Foremost
import WhereEditor.Proofs.Tree.Identity

/-!
The searches for depth as they go through the slots: one that takes the largest depth of the subgroups,
one that visits the groups and keeps the deepest so far, and the walks up. Main statement: after every
run of edits they agree with each other, with the clauses and with the parentheses of the query.
-/

namespace WhereEditor.Arena

namespace Guarded

def clauseDepth (arena : Arena) (bound : Nat) (id : NodeId) : Except Fault Nat :=
  match arena.parent? id with
  | none => .ok 0
  | some group => groupDepth arena bound group

def treeDepth (arena : Arena) (bound : Nat) : Nat → NodeId → Except Fault Nat
  | 0, _ => .error .endless
  | more + 1, group => do
      let own ← groupDepth arena bound group
      let below ← ((arena.children group).filter arena.isGroup).mapM (treeDepth arena bound more)
      return below.foldl max own

/-- Goes on into an item if it is a group, unless it is the item at `skip` on the first level. -/
def enter (arena : Arena) (skip : Option Nat) (level : Nat)
    (visit : NodeId → NodeId × Nat → Except Fault (NodeId × Nat)) (best : NodeId × Nat)
    (item : NodeId × Nat) : Except Fault (NodeId × Nat) :=
  if arena.isGroup item.1 && (decide (1 < level) || some item.2 != skip) then visit item.1 best
  else .ok best

def visit (arena : Arena) (bound : Nat) (skip : Option Nat) :
    Nat → Nat → NodeId → NodeId × Nat → Except Fault (NodeId × Nat)
  | 0, _, _, _ => .error .endless
  | more + 1, level, group, best => do
      let depth ← groupDepth arena bound group
      (arena.children group).zipIdx.foldlM
        (enter arena skip level (visit arena bound skip more (level + 1)))
        (deeper best (group, depth))

def deepestGroup (arena : Arena) (bound : Nat) (group : NodeId) (skip : Option Nat) :
    Except Fault NodeId := do
  let depth ← groupDepth arena bound group
  let deepest ← visit arena bound skip bound 1 group (group, depth)
  return deepest.1

variable {arena : Arena} {tree : Tree} {bound : Nat} {skip : Option Nat}

section Represents

variable (represents : arena.Represents tree) (sound : tree.Sound) (enough : arena.next ≤ bound)

include represents sound enough

theorem groupDepth_eq (id : NodeId) : groupDepth arena bound id = .ok (tree.groupDepth id) :=
  groupDepth_eq_ok represents sound (represents.climbs sound id) enough

theorem clauseDepth_eq (id : NodeId) :
    clauseDepth arena bound id = .ok (tree.clauseDepth id) := by
  rw [clauseDepth, represents.parent?_eq sound]
  cases up : tree.parent? id with
  | none =>
      rw [Tree.parent?, Option.map_eq_none_iff, List.head?_eq_none_iff] at up
      rw [Tree.clauseDepth, up]
      rfl
  | some group =>
      rw [sound.clauseDepth_of_parent? up]
      exact groupDepth_eq represents sound enough group

theorem foldlM_enter_eq {row : Forest} {layers : List Layer} (before beyond : Forest)
    (whole : tree.row = (before ++ (row ++ beyond)).within layers) {more level start : Nat}
    (fits : row.height ≤ more) (first : 1 ≤ level)
    (open_ : ∀ index, start ≤ index → index < start + row.width → 1 < level ∨ some index ≠ skip)
    (best : NodeId × Nat) :
    (row.heads.zipIdx start).foldlM
        (enter arena skip level (visit arena bound skip more (level + 1))) best =
      .ok (tree.bestAfter best row) := by
  induction row generalizing layers before beyond more level start best with
  | nil => rfl
  | clause id body rest ih =>
      have noGroup : arena.isGroup id = false := by
        rw [represents.isGroup_eq sound, Tree.isGroup, sound.row?_eq_none (sound.clause?_item whole)]
        rfl
      have further : tree.row =
          ((before ++ .clause id body .nil) ++ (rest ++ beyond)).within layers := by
        rw [Forest.append_assoc]
        exact whole
      have later : (rest.heads.zipIdx (start + 1)).foldlM
          (enter arena skip level (visit arena bound skip more (level + 1))) best =
            .ok (tree.bestAfter best rest) :=
        ih _ _ further fits first (fun index behind inside =>
          open_ index (by omega) (by rw [Forest.width_clause]; omega)) best
      rw [Forest.heads, List.zipIdx_cons, List.foldlM_cons, enter, noGroup]
      exact later
  | group id members rest inner ih =>
      rw [Forest.height] at fits
      obtain ⟨more, rfl⟩ := Nat.exists_eq_succ_of_ne_zero (by omega : more ≠ 0)
      have further : tree.row =
          ((before ++ .group id members .nil) ++ (rest ++ beyond)).within layers := by
        rw [Forest.append_assoc]
        exact whole
      have inside : tree.row =
          (Forest.nil ++ (members ++ .nil)).within (⟨before, id, rest ++ beyond⟩ :: layers) := by
        rw [Forest.append_nil]
        exact whole
      have found : tree.row? id = some members := by
        rw [Forest.append_nil] at inside
        exact sound.row?_holder inside
      have entered : enter arena skip level (visit arena bound skip (more + 1) (level + 1)) best
          (id, start) = visit arena bound skip (more + 1) (level + 1) id best := by
        have isGroup : arena.isGroup id = true := by
          rw [represents.isGroup_eq sound, Tree.isGroup, found]
          rfl
        have passes := open_ start (Nat.le_refl _) (by rw [Forest.width_group]; omega)
        rw [enter, isGroup, if_pos (by simpa using passes)]
      have here : visit arena bound skip (more + 1) (level + 1) id best =
          .ok (tree.bestAfter (deeper best (id, tree.groupDepth id)) members) := by
        have items : arena.children id = members.heads := by
          rw [represents.children_eq sound, Tree.children, found, Option.getD_some]
        rw [visit, groupDepth_eq represents sound enough, items]
        -- Below the first level nothing is skipped.
        exact inner _ _ inside (by omega : members.height ≤ more) (by omega : 1 ≤ level + 1)
          (fun _ _ _ => .inl (by omega)) _
      have later : ∀ best, (rest.heads.zipIdx (start + 1)).foldlM
          (enter arena skip level (visit arena bound skip (more + 1) (level + 1))) best =
            .ok (tree.bestAfter best rest) :=
        ih _ _ further (by omega : rest.height ≤ more + 1) first fun index behind inside =>
          open_ index (by omega) (by rw [Forest.width_group]; omega)
      rw [Forest.heads, List.zipIdx_cons, List.foldlM_cons, entered, here, Tree.bestAfter_group]
      exact later _

theorem foldlM_enter_eraseIdx {row : Forest} {layers : List Layer}
    (whole : tree.row = row.within layers) {more : Nat} (fits : row.height ≤ more)
    (best : NodeId × Nat) :
    row.heads.zipIdx.foldlM (enter arena skip 1 (visit arena bound skip more 2)) best =
      .ok (tree.bestAfter best (skip.elim row row.eraseIdx)) := by
  have unskipped : (∀ index < row.width, some index ≠ skip) →
      row.heads.zipIdx.foldlM (enter arena skip 1 (visit arena bound skip more 2)) best =
        .ok (tree.bestAfter best row) := by
    intro others
    have around : tree.row = (Forest.nil ++ (row ++ .nil)).within layers := by
      rw [Forest.append_nil]
      exact whole
    exact foldlM_enter_eq represents sound enough _ _ around fits (Nat.le_refl 1)
      (fun index _ inside => .inr (others index (by omega))) best
  cases skip with
  | none => exact unskipped fun _ _ => by simp
  | some index =>
      rw [Option.elim_some]
      by_cases inside : index < row.width
      · obtain ⟨left, target, item, right, rfl, isItem, rfl⟩ := Forest.exists_item_of_lt_width inside
        simp only [Forest.height_append] at fits
        have before : left.heads.zipIdx.foldlM
            (enter arena (some left.width) 1 (visit arena bound (some left.width) more 2)) best =
              .ok (tree.bestAfter best left) :=
          foldlM_enter_eq represents sound enough .nil (item ++ right) whole (by omega) (Nat.le_refl 1)
            (fun index _ early => .inr fun same => by cases same; omega) best
        have further : tree.row = ((left ++ item) ++ (right ++ .nil)).within layers := by
          rw [Forest.append_nil, Forest.append_assoc]
          exact whole
        have behind : ∀ best, (right.heads.zipIdx (left.width + 1)).foldlM
            (enter arena (some left.width) 1 (visit arena bound (some left.width) more 2)) best =
              .ok (tree.bestAfter best right) :=
          foldlM_enter_eq represents sound enough _ _ further (by omega) (Nat.le_refl 1)
            fun index late _ => .inr fun same => by cases same; omega
        have onward : ∀ best, ((target :: right.heads).zipIdx left.width).foldlM
            (enter arena (some left.width) 1 (visit arena bound (some left.width) more 2)) best =
              .ok (tree.bestAfter best right) := by
          intro best
          have passed : enter arena (some left.width) 1
              (visit arena bound (some left.width) more 2) best (target, left.width) = .ok best := by
            simp [enter]
          rw [List.zipIdx_cons, List.foldlM_cons, passed]
          exact behind best
        rw [Forest.eraseIdx_item isItem, Tree.bestAfter_append, Forest.heads_append,
          Forest.heads_append, isItem.heads, List.zipIdx_append, List.foldlM_append, before,
          Nat.zero_add]
        exact onward _
      · have outside := Nat.not_lt.mp inside
        rw [Forest.eraseIdx_of_width_le outside]
        exact unskipped fun other early same => by cases same; omega

theorem visit_eq (skip : Option Nat) {row : Forest} {layers : List Layer}
    (whole : tree.row = row.within layers) {more : Nat} (fits : row.height ≤ more) :
    visit arena bound skip (more + 1) 1 (Layer.holder layers)
        (Layer.holder layers, tree.groupDepth (Layer.holder layers)) =
      .ok (tree.bestAfter (Layer.holder layers, tree.groupDepth (Layer.holder layers))
        (skip.elim row row.eraseIdx)) := by
  have items : arena.children (Layer.holder layers) = row.heads := by
    rw [represents.children_eq sound, sound.children_holder whole]
  rw [visit, groupDepth_eq represents sound enough, items]
  -- The group itself is no deeper than what the search starts from.
  refine (congrArg (List.foldlM _ · _) (deeper_of_not_lt (Nat.lt_irrefl _))).trans ?_
  exact foldlM_enter_eraseIdx represents sound enough whole fits _

theorem deepestGroup_eq {group : NodeId} (isGroup : tree.isGroup group = true) :
    deepestGroup arena bound group skip = .ok (tree.deepestGroup group skip) := by
  obtain ⟨row, found⟩ := Option.isSome_iff_exists.mp isGroup
  obtain ⟨layers, rfl, whole, _⟩ := sound.exists_layers found
  obtain ⟨_, _, deep⟩ := represents.holds_of_within sound whole
  have deepest : row.height + layers.length < bound := Nat.lt_of_lt_of_le deep enough
  obtain ⟨more, rfl⟩ := Nat.exists_eq_succ_of_ne_zero (by omega : bound ≠ 0)
  have visited := visit_eq represents sound enough skip whole (by omega : row.height ≤ more)
  rw [(sound.bestAfter_eq found skip).1] at visited
  rw [deepestGroup, groupDepth_eq represents sound enough]
  exact congrArg (· >>= fun deepest => pure deepest.1) visited

theorem treeDepth_eq {steps more : Nat} {group : NodeId} (shallow : arena.Shallow steps group)
    (fits : steps ≤ more) : treeDepth arena bound more group = .ok (tree.depth group) := by
  induction steps generalizing group more with
  | zero => exact shallow.elim
  | succ steps ih =>
      obtain ⟨more, rfl⟩ := Nat.exists_eq_succ_of_ne_zero (by omega : more ≠ 0)
      have below : ((arena.children group).filter arena.isGroup).mapM (treeDepth arena bound more) =
          .ok (((arena.children group).filter arena.isGroup).map tree.depth) :=
        mapM_eq_pure_map fun item member =>
          ih (shallow item (List.mem_of_mem_filter member)) (Nat.le_of_succ_le_succ fits)
      rw [treeDepth, groupDepth_eq represents sound enough, below, sound.depth_eq_foldl group,
        represents.children_eq sound, represents.isGroup_eq sound]
      rfl

end Represents

end Guarded

/-- In the slots that edits lead to, for every group and whatever item of it is skipped: the visits
leave the first of the deepest groups looked at. Its depth, where none is skipped, is the one that the
subgroups are asked for, and that of the deepest clause below the group if there is one. At the root it
is how far the parentheses of every query lie within each other. -/
theorem searches_after {bound : Nat} (edits : List Tree.Edit) (group : NodeId)
    (isGroup : (Tree.after edits).isGroup group = true) (skip : Option Nat)
    (enough : (after edits).next ≤ bound) :
    let arena := after edits
    let tree := Tree.after edits
    Guarded.deepestGroup arena bound group skip = .ok (tree.deepestGroup group skip) ∧
      tree.FirstDeepest group skip (tree.deepestGroup group skip) ∧
      Guarded.treeDepth arena bound bound group = .ok (tree.depth group) ∧
      tree.groupDepth (tree.deepestGroup group none) = tree.depth group ∧
      ((tree.clauseDepths group).Nonempty → IsGreatest (tree.clauseDepths group) (tree.depth group)) ∧
      (∀ id, Guarded.groupDepth arena bound id = .ok (tree.groupDepth id) ∧
        Guarded.clauseDepth arena bound id = .ok (tree.clauseDepth id)) ∧
      Parenthesis.nesting 0 tree.row.parentheses = tree.depth NodeId.root ∧
      ∀ (style : Style) (options : QueryOptions),
        (style.write tree options = do
          let text ← style.print options.clock tree.row.pieces
          return Text.trimText (style.preamble tree options ++ " " ++ text)) ∧
        ∀ text, (∀ head, style.head? options = some head → Parenthesis.inText head = []) →
          (∀ entry ∈ tree.clauses, style.Bare options.clock entry.2) →
          style.write tree options = .ok text →
          Parenthesis.nesting 0 (Parenthesis.inText text) = tree.depth NodeId.root := by
  intro arena tree
  have sound : tree.Sound := Tree.sound_after edits
  have represents : arena.Represents tree := Tree.represents_after edits
  refine ⟨Guarded.deepestGroup_eq represents sound enough isGroup, sound.firstDeepest isGroup skip,
    Guarded.treeDepth_eq represents sound enough (represents.shallow sound group) enough,
    sound.groupDepth_deepestGroup isGroup none, sound.isGreatest_clauseDepths,
    fun id => ⟨Guarded.groupDepth_eq represents sound enough id,
      Guarded.clauseDepth_eq represents sound enough id⟩,
    sound.nesting_parentheses, fun style options => ⟨style.write_eq tree sound options, ?_⟩⟩
  intro text bareHead bare written
  rw [Style.inText_write sound bareHead bare written]
  exact sound.nesting_parentheses

/-- Four clauses, the last two in a group, and the last three with it in another. Without the item of
the root that holds them there is no group but the root. -/
theorem searches_after_nested :
    let body := Clause.literal .and "a" (.edm .string) .equal "x"
    let edits : List Tree.Edit := [.fresh body, .fresh body, .fresh body, .fresh body, .mark 3,
      .mark 4, .group NodeId.root, .mark 2, .mark 3, .mark 4, .group NodeId.root]
    let arena := after edits
    let tree := Tree.after edits
    let options : QueryOptions := { clock := { now := ⟨0, 0⟩, offset := 0 } }
    let text := "a eq 'x' and (a eq 'x' and (a eq 'x' and a eq 'x'))"
    arena.next ≤ 7 ∧ tree.isGroup NodeId.root = true ∧
      tree.FirstDeepest NodeId.root none 5 ∧ Guarded.deepestGroup arena 7 NodeId.root none = .ok 5 ∧
      Guarded.treeDepth arena 7 7 NodeId.root = .ok 2 ∧
      Guarded.deepestGroup arena 7 NodeId.root (some 1) = .ok NodeId.root ∧
      IsGreatest (tree.clauseDepths NodeId.root) 2 ∧
      Filter.style.write tree options = .ok text ∧
      Parenthesis.nesting 0 (Parenthesis.inText text) = 2 := by
  intro body edits arena tree options text
  have enough : arena.next ≤ 7 := by decide +kernel
  have isGroup : tree.isGroup NodeId.root = true := by decide +kernel
  have found : tree.deepestGroup NodeId.root none = 5 := by decide +kernel
  have others : tree.deepestGroup NodeId.root (some 1) = NodeId.root := by decide +kernel
  have deep : tree.depth NodeId.root = 2 := by decide +kernel
  have written : Filter.style.write tree options = .ok text := by decide +kernel
  have below : tree.Below 1 NodeId.root := .single (by decide +kernel)
  have inhabited : (tree.clauseDepths NodeId.root).Nonempty :=
    ⟨tree.clauseDepth 1, 1, body, by decide +kernel, below, rfl⟩
  have alike : ∀ entry ∈ tree.clauses, entry.2 = body := by decide +kernel
  have bare : ∀ entry ∈ tree.clauses, Filter.style.Bare options.clock entry.2 := by
    intro entry member comparison spelled
    rw [alike entry member] at spelled
    have shape : Filter.style.writeClause options.clock body = .ok "a eq 'x'" := by decide +kernel
    cases shape.symm.trans spelled
    decide +kernel
  obtain ⟨visited, first, asked, _, greatest, _, _, queries⟩ :=
    searches_after edits NodeId.root isGroup none enough
  obtain ⟨passed, _⟩ := searches_after edits NodeId.root isGroup (some 1) enough
  have nested := (queries Filter.style options).2 text (fun _ begins => nomatch begins) bare written
  have reached := greatest inhabited
  rw [found] at visited first
  rw [deep] at asked nested reached
  rw [others] at passed
  exact ⟨enough, isGroup, first, visited, asked, passed, reached, written, nested⟩

end WhereEditor.Arena
