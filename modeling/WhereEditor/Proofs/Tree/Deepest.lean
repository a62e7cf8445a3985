import WhereEditor.Proofs.Tree.Ascent

/-!
The group that is found as the deepest one at or below a group. Main statement: its depth is the one
that the tree reaches there, so that looking for the group and taking the height of the row agree.
-/

namespace WhereEditor

namespace Forest

inductive Nests : Forest → NodeId → Nat → Prop
  | here {id members rest} : Nests (group id members rest) id 0
  | inside {holder members rest id depth} (nests : Nests members id depth) :
      Nests (group holder members rest) id (depth + 1)
  | afterClause {first body rest id depth} (nests : Nests rest id depth) :
      Nests (clause first body rest) id depth
  | afterGroup {first members rest id depth} (nests : Nests rest id depth) :
      Nests (group first members rest) id depth

theorem nests_append_iff {left right : Forest} {id : NodeId} {depth : Nat} :
    (left ++ right).Nests id depth ↔ left.Nests id depth ∨ right.Nests id depth := by
  constructor
  · intro nests
    induction left with
    | nil => exact .inr nests
    | clause first body rest ih =>
        cases nests with
        | afterClause later => exact (ih later).imp_left .afterClause
    | group first members rest _ ih =>
        cases nests with
        | here => exact .inl .here
        | inside deeper => exact .inl (.inside deeper)
        | afterGroup later => exact (ih later).imp_left .afterGroup
  · rintro (nests | nests)
    · induction nests with
      | here => exact .here
      | inside deeper _ => exact .inside deeper
      | afterClause _ ih => exact .afterClause ih
      | afterGroup _ ih => exact .afterGroup ih
    · induction left with
      | nil => exact nests
      | clause first body rest ih => exact .afterClause ih
      | group first members rest _ ih => exact .afterGroup ih

theorem Nests.of_eraseIdx {row : Forest} {index : Nat} {id : NodeId} {depth : Nat}
    (nests : (row.eraseIdx index).Nests id depth) : row.Nests id depth := by
  rcases nests_append_iff.mp nests with before | behind
  · rw [← take_append_drop row index]
    exact nests_append_iff.mpr (.inl before)
  · rw [← take_append_drop row (index + 1)]
    exact nests_append_iff.mpr (.inr behind)

theorem deepest?_group (id : NodeId) (members rest : Forest) :
    (group id members rest).deepest? =
      let here := (members.deepest?.map fun found => (found.1, found.2 + 1)).getD (id, 0)
      rest.deepest?.elim (some here) fun later => if here.2 < later.2 then some later
        else some here := by
  rw [deepest?]
  cases members.deepest? <;> cases rest.deepest? <;> rfl

theorem deepest?_cases (row : Forest) :
    row.deepest? = none ∧ row.height = 0 ∨
      ∃ id depth, row.deepest? = some (id, depth) ∧ row.Nests id depth ∧
        row.height = depth + 1 := by
  induction row with
  | nil => exact .inl ⟨rfl, rfl⟩
  | clause first body rest ih =>
      rcases ih with empty | ⟨id, depth, found, nests, high⟩
      · exact .inl empty
      · exact .inr ⟨id, depth, found, .afterClause nests, high⟩
  | group holder members rest inner ih =>
      have here : ∃ id depth,
          (members.deepest?.map fun found => (found.1, found.2 + 1)).getD (holder, 0) =
            (id, depth) ∧
          (group holder members rest).Nests id depth ∧ members.height = depth := by
        rcases inner with ⟨empty, flat⟩ | ⟨id, depth, found, nests, high⟩
        · exact ⟨holder, 0, by rw [empty]; rfl, .here, flat⟩
        · exact ⟨id, depth + 1, by rw [found]; rfl, .inside nests, high⟩
      obtain ⟨id, depth, chosen, nests, high⟩ := here
      right
      rw [deepest?_group, chosen, height, high]
      rcases ih with ⟨empty, flat⟩ | ⟨other, level, found, later, higher⟩
      · rw [empty, flat]
        exact ⟨id, depth, rfl, nests, Nat.max_eq_left (Nat.zero_le _)⟩
      · rw [found, higher]
        by_cases deeper : depth < level
        · refine ⟨other, level, if_pos deeper, .afterGroup later, ?_⟩
          omega
        · refine ⟨id, depth, if_neg deeper, nests, ?_⟩
          omega

end Forest

namespace Tree.Sound

variable {tree : Tree} {group id : NodeId}

theorem groupDepth_of_nests (sound : tree.Sound) {row : Forest} {depth : Nat}
    (nests : row.Nests id depth) (before : Forest) {layers : List Layer}
    (whole : tree.row = (before ++ row).within layers) :
    tree.groupDepth id = layers.length + depth + 1 := by
  induction nests generalizing before layers with
  | here => exact sound.groupDepth_item whole (.group _)
  | @inside holder members rest _ _ _ ih =>
      have deeper : tree.row = (Forest.nil ++ members).within (⟨before, holder, rest⟩ :: layers) :=
        whole
      rw [ih .nil deeper, List.length_cons]
      omega
  | @afterClause first body _ _ _ _ ih =>
      refine ih (before ++ .clause first body .nil) ?_
      rw [Forest.append_assoc]
      exact whole
  | @afterGroup first members _ _ _ _ ih =>
      refine ih (before ++ .group first members .nil) ?_
      rw [Forest.append_assoc]
      exact whole

theorem groupDepth_deepestGroup (sound : tree.Sound) (isGroup : tree.isGroup group = true)
    (skip : Option Nat) :
    tree.groupDepth (tree.deepestGroup group skip) = tree.reach group skip := by
  obtain ⟨row, found⟩ := Option.isSome_iff_exists.mp isGroup
  obtain ⟨layers, rfl, whole, _⟩ := sound.exists_layers found
  rw [sound.reach_holder whole, deepestGroup, found, Option.getD_some]
  rcases (skip.elim row row.eraseIdx).deepest?_cases with
    ⟨empty, flat⟩ | ⟨id, depth, deepest, nests, high⟩
  · rw [empty, flat, Option.map_none, Option.getD_none, sound.groupDepth_holder whole,
      Nat.add_zero]
  · have within : row.Nests id depth := by
      cases skip with
      | none => exact nests
      | some index => exact nests.of_eraseIdx
    rw [deepest, high, Option.map_some, Option.getD_some,
      sound.groupDepth_of_nests within .nil whole, Nat.add_assoc]

end Tree.Sound

end WhereEditor
