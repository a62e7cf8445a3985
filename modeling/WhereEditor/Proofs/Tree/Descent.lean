import WhereEditor.Proofs.Tree.Ascent
import WhereEditor.Proofs.Tree.Clauses

/-!
The clauses below a group, at any depth, and the marks of the items of a group. Main statements: the
clauses in the row of a group and its subgroups are those whose way up leads through the group, in
the order that they have in the tree; and the items of a row are marked as their ids say.
-/

namespace WhereEditor

namespace Forest

variable {row : Forest} {id : NodeId} {body : Clause} {entry other : NodeId × Clause}

theorem eq_of_mem_clauses (distinct : row.ids.Nodup) (here : entry ∈ row.clauses)
    (there : other ∈ row.clauses) (same : entry.1 = other.1) : entry = other :=
  List.inj_on_of_nodup_map (distinct.sublist row.map_fst_clauses_sublist) here there same

theorem clause?_eq_some_iff (distinct : row.ids.Nodup) :
    row.clause? id = some body ↔ (id, body) ∈ row.clauses := by
  refine ⟨mem_clauses_of_clause?, fun member => ?_⟩
  cases found : row.clause? id with
  | none => exact absurd rfl (ne_of_clause?_eq_none found member)
  | some here =>
      have same := eq_of_mem_clauses distinct (mem_clauses_of_clause? found) member rfl
      exact congrArg some (congrArg Prod.snd same)

theorem width_le_length_clauses {row : Forest} (occupied : row.AtLeast 1) :
    row.width ≤ row.clauses.length := by
  induction row with
  | nil => exact Nat.le_refl _
  | clause id body rest ih =>
      have later := ih occupied
      simp only [width_clause, clauses, List.length_cons]
      omega
  | group id members rest inner ih =>
      obtain ⟨wide, within, further⟩ := occupied
      have here := inner within
      have later := ih further
      simp only [width_group, clauses, List.length_append]
      omega

/-! ## Taking a tree apart -/

theorem within_append (row : Forest) (inner outer : List Layer) :
    row.within (inner ++ outer) = (row.within inner).within outer := by
  induction inner generalizing row with
  | nil => rfl
  | cons layer further ih => exact ih (layer.left ++ group layer.id row layer.right)

/-- The clauses around a row are the same whatever stands in the row. -/
theorem exists_clauses_within (layers : List Layer) :
    ∃ before beyond, (∀ entry ∈ before ++ beyond, entry.1 ∈ Layer.ids layers) ∧
      ∀ row : Forest, (row.within layers).clauses = before ++ (row.clauses ++ beyond) := by
  induction layers with
  | nil => exact ⟨[], [], by simp, fun row => by simp [within]⟩
  | cons layer outer ih =>
      obtain ⟨before, beyond, outside, around⟩ := ih
      refine ⟨before ++ layer.left.clauses, layer.right.clauses ++ beyond, ?_, fun row => ?_⟩
      · intro entry member
        simp only [List.mem_append] at member
        simp only [Layer.ids, List.mem_cons, List.mem_append]
        rcases member with (far | left) | (right | far)
        · exact .inr (.inr (outside entry (List.mem_append_left _ far)))
        · exact .inr (.inl (.inl (mem_ids_of_mem_clauses left)))
        · exact .inr (.inl (.inr (mem_ids_of_mem_clauses right)))
        · exact .inr (.inr (outside entry (List.mem_append_right _ far)))
      · rw [within, around, clauses_append, clauses]
        simp only [List.append_assoc]

theorem exists_cut_of_mem_clauses (distinct : row.ids.Nodup) (member : entry ∈ row.clauses) :
    ∃ left right layers,
      row = (left ++ (clause entry.1 entry.2 nil ++ right)).within layers := by
  obtain ⟨left, item, right, layers, whole, isItem⟩ := exists_cut (mem_ids_of_mem_clauses member)
  cases isItem with
  | clause body =>
      obtain ⟨before, beyond, _, around⟩ := exists_clauses_within layers
      have there : (entry.1, body) ∈ row.clauses := by
        rw [whole, around]
        simp [clauses]
      have same := eq_of_mem_clauses distinct there member rfl
      exact ⟨left, right, layers, by rw [← same]; exact whole⟩
  | group members =>
      obtain ⟨outside, notLeft, _⟩ := not_mem_of_cut (whole ▸ distinct) (.group members)
      have noGroup := members?_eq_none_of_mem_clauses distinct member
      rw [whole, members?_within outside, members?_append, members?_eq_none notLeft, group_append,
        members?_group, if_pos rfl] at noGroup
      exact absurd noGroup (by simp)

end Forest

namespace Tree

variable {tree : Tree} {row : Forest} {id group : NodeId} {entry : NodeId × Clause}

def clausesBelow (tree : Tree) (group : NodeId) : List (NodeId × Clause) :=
  ((tree.row? group).getD .nil).clauses

def mark (tree : Tree) (id : NodeId) : Selection :=
  match tree.clause? id with
  | some body => if body.selected then .all else .none
  | none => tree.selection id

theorem mark_of_clause {body : Clause} (held : tree.clause? id = some body) :
    tree.mark id = if body.selected then .all else .none := by
  rw [mark, held]

theorem mark_of_group (noClause : tree.clause? id = none) : tree.mark id = tree.selection id := by
  rw [mark, noClause]

namespace Sound

/-! ## What is below a group -/

theorem isGroup_of_below (sound : tree.Sound) (below : tree.Below id group) :
    tree.isGroup group = true := by
  obtain ⟨last, _, up⟩ := Relation.TransGen.tail'_iff.mp below
  exact isGroup_of_mem_children (sound.mem_children_iff_parent?.mpr up)

theorem mem_ids_of_below (sound : tree.Sound) (below : tree.Below id group) :
    id ∈ tree.row.ids := by
  obtain ⟨parent, up, _⟩ := Relation.TransGen.head'_iff.mp below
  exact sound.mem_ids_of_parent? up

theorem below_root_iff (sound : tree.Sound) : tree.Below id NodeId.root ↔ id ∈ tree.row.ids := by
  constructor
  · exact sound.mem_ids_of_below
  · intro member
    have climb := sound.reflTransGen_parent? (contains_iff.mpr (.inr member))
    rcases Relation.reflTransGen_iff_eq_or_transGen.mp climb with same | below
    · exact absurd (same ▸ member) sound.root_not_mem
    · exact below

theorem below_iff (sound : tree.Sound) (found : tree.row? group = some row) :
    tree.Below id group ↔ id ∈ row.ids := by
  by_cases outer : group = NodeId.root
  · subst outer
    rw [row?_root] at found
    rw [sound.below_root_iff, Option.some.inj found]
  · obtain ⟨around, held, whole, _⟩ := sound.exists_layers found
    obtain ⟨layer, further, rfl⟩ : ∃ layer further, around = layer :: further := by
      cases around with
      | nil => exact absurd held.symm outer
      | cons layer further => exact ⟨layer, further, rfl⟩
    constructor
    · intro below
      obtain ⟨left, item, right, all, cut, isItem⟩ :=
        Forest.exists_cut (sound.mem_ids_of_below below)
      have climb := sound.around_item cut isItem
      obtain ⟨here, listed, same⟩ := List.mem_map.mp ((climb.mem_iff sound).mpr ⟨outer, below⟩)
      obtain ⟨inner, beyond, rfl⟩ := List.append_of_mem listed
      rw [Forest.within_append] at cut
      have reached := sound.row?_holder cut
      rw [Layer.holder, same, found] at reached
      rw [Option.some.inj reached]
      refine (Forest.ids_within_perm _ inner).mem_iff.mpr (List.mem_append_left _ ?_)
      simp [isItem.mem_ids]
    · intro member
      obtain ⟨left, item, right, inner, cut, isItem⟩ := Forest.exists_cut member
      rw [cut, ← Forest.within_append] at whole
      have climb := sound.around_item whole isItem
      refine ((climb.mem_iff sound).mp ?_).2
      rw [List.map_append, List.map_cons]
      exact List.mem_append_right _ (held ▸ List.mem_cons_self)

open Classical in
/-- The clauses below a group are those of the tree whose way up leads through the group. -/
theorem clausesBelow_eq_filter (sound : tree.Sound) (group : NodeId) :
    tree.clausesBelow group = tree.clauses.filter fun entry => tree.Below entry.1 group := by
  rw [clausesBelow]
  cases found : tree.row? group with
  | none =>
      have nothing : ∀ entry ∈ tree.clauses, ¬ decide (tree.Below entry.1 group) = true := by
        intro entry _ below
        have live := sound.isGroup_of_below (of_decide_eq_true below)
        rw [isGroup, found] at live
        exact absurd live (by simp)
      rw [List.filter_eq_nil_iff.mpr nothing]
      rfl
  | some row =>
      obtain ⟨layers, _, whole, _⟩ := sound.exists_layers found
      obtain ⟨_, _, apart⟩ := Forest.nodup_within_iff.mp (whole ▸ sound.distinct)
      obtain ⟨before, beyond, outside, around⟩ := Forest.exists_clauses_within layers
      have away : ∀ entry ∈ before ++ beyond, ¬ decide (tree.Below entry.1 group) = true := by
        intro entry far below
        have inside := (sound.below_iff found).mp (of_decide_eq_true below)
        exact apart entry.1 inside (outside entry far)
      have here : ∀ entry ∈ row.clauses, decide (tree.Below entry.1 group) = true := by
        intro entry member
        exact decide_eq_true ((sound.below_iff found).mpr (Forest.mem_ids_of_mem_clauses member))
      have whole : tree.clauses = before ++ (row.clauses ++ beyond) := by
        rw [clauses, whole, around]
      rw [whole, List.filter_append, List.filter_append, List.filter_eq_self.mpr here,
        List.filter_eq_nil_iff.mpr fun entry far => away entry (List.mem_append_left _ far),
        List.filter_eq_nil_iff.mpr fun entry far => away entry (List.mem_append_right _ far)]
      simp

theorem mem_clausesBelow_iff (sound : tree.Sound) :
    entry ∈ tree.clausesBelow group ↔ entry ∈ tree.clauses ∧ tree.Below entry.1 group := by
  classical
  rw [sound.clausesBelow_eq_filter, List.mem_filter, decide_eq_true_eq]

theorem getLast?_ne_of_head? (sound : tree.Sound 2) (inner : group ≠ NodeId.root)
    (first : (tree.clausesBelow group).head? = some entry) :
    (tree.clausesBelow group).getLast? ≠ some entry := by
  intro last
  obtain ⟨row, found⟩ : ∃ row, tree.row? group = some row := by
    cases found : tree.row? group with
    | none =>
        rw [clausesBelow, found] at first
        cases first
    | some row => exact ⟨row, rfl⟩
  have wide := sound.le_length_children inner (Option.isSome_iff_exists.mpr ⟨row, found⟩)
  rw [children, found, Option.getD_some] at wide
  rw [clausesBelow, found, Option.getD_some] at first last
  obtain ⟨layers, _, around, _⟩ := sound.exists_layers found
  obtain ⟨distinct, _, _⟩ := Forest.nodup_within_iff.mp (around ▸ sound.distinct)
  have many := Forest.width_le_length_clauses ((sound.atLeast_row? found).mono (by decide))
  have clauses := Forest.nodup_clauses distinct
  obtain ⟨before, whole⟩ := List.getLast?_eq_some_iff.mp last
  rw [whole] at first many clauses
  have more : before ≠ [] := by
    rintro rfl
    exact Nat.not_succ_le_self 1 (Nat.le_trans wide many)
  rw [List.head?_append_of_ne_nil _ more] at first
  exact (List.nodup_append.mp clauses).2.2 entry (List.mem_of_mem_head? first) entry
    (List.mem_singleton_self entry) rfl

/-! ## Clauses and groups by their ids -/

theorem clause?_eq_some_iff (sound : tree.Sound) {body : Clause} :
    tree.clause? id = some body ↔ (id, body) ∈ tree.clauses :=
  Forest.clause?_eq_some_iff sound.distinct

theorem clause?_eq_none (sound : tree.Sound) (isGroup : tree.isGroup id = true) :
    tree.clause? id = none := by
  cases found : tree.clause? id with
  | none => rfl
  | some body =>
      have member := sound.clause?_eq_some_iff.mp found
      have inside := Forest.mem_ids_of_mem_clauses member
      have inner : id ≠ NodeId.root := fun same => sound.root_not_mem (same ▸ inside)
      obtain ⟨row, present⟩ := Option.isSome_iff_exists.mp isGroup
      rw [row?_of_ne inner,
        Forest.members?_eq_none_of_mem_clauses sound.distinct member] at present
      exact absurd present (by simp)

section Clause

variable {body : Clause}

theorem row?_eq_none (sound : tree.Sound) (held : tree.clause? id = some body) :
    tree.row? id = none := by
  cases found : tree.row? id with
  | none => rfl
  | some row =>
      have noClause := sound.clause?_eq_none (Option.isSome_iff_exists.mpr ⟨row, found⟩)
      rw [held] at noClause
      cases noClause

theorem not_below_clause (sound : tree.Sound) (held : tree.clause? id = some body)
    (other : NodeId) : ¬ tree.Below other id := by
  intro below
  have isGroup := sound.isGroup_of_below below
  rw [Tree.isGroup, sound.row?_eq_none held] at isGroup
  cases isGroup

theorem clause?_item (sound : tree.Sound) {left right : Forest} {layers : List Layer}
    (whole : tree.row = (left ++ (.clause id body .nil ++ right)).within layers) :
    tree.clause? id = some body := by
  obtain ⟨before, beyond, _, around⟩ := Forest.exists_clauses_within layers
  rw [sound.clause?_eq_some_iff, clauses, whole, around]
  simp [Forest.clauses]

end Clause

theorem clause_or_group (sound : tree.Sound) (member : id ∈ tree.row.ids) :
    (∃ body, tree.clause? id = some body) ∨ ∃ row, tree.row? id = some row := by
  obtain ⟨left, item, right, layers, whole, isItem⟩ := Forest.exists_cut member
  cases isItem with
  | clause body =>
      exact .inl ⟨body, sound.clause?_item whole⟩
  | group members =>
      have inside : tree.row = members.within (⟨left, id, right⟩ :: layers) := whole
      exact .inr ⟨members, sound.row?_holder inside⟩

theorem selections_eq_map_mark (sound : tree.Sound) {layers : List Layer} (before row : Forest)
    (whole : tree.row = (before ++ row).within layers) :
    row.selections = row.heads.map tree.mark := by
  induction row generalizing before layers with
  | nil => rfl
  | clause id body rest ih =>
      have later := ih (before ++ .clause id body .nil) (by rw [Forest.append_assoc]; exact whole)
      have found : tree.clause? id = some body := sound.clause?_item whole
      rw [Forest.selections, Forest.heads, List.map_cons, mark_of_clause found, later]
  | group id members rest _ ih =>
      have later := ih (before ++ .group id members .nil) (by rw [Forest.append_assoc]; exact whole)
      have inside : tree.row = members.within (⟨before, id, rest⟩ :: layers) := whole
      have found := sound.row?_holder inside
      rw [Layer.holder] at found
      have noClause : tree.clause? id = none := sound.clause?_eq_none (by rw [isGroup, found]; rfl)
      rw [Forest.selections, Forest.heads, List.map_cons, mark_of_group noClause, selection, found,
        later]
      rfl

theorem selections_row? (sound : tree.Sound) (found : tree.row? group = some row) :
    row.selections = row.heads.map tree.mark := by
  obtain ⟨layers, _, whole, _⟩ := sound.exists_layers found
  exact sound.selections_eq_map_mark .nil row whole

theorem selection_eq (sound : tree.Sound) (group : NodeId) :
    tree.selection group = .ofItems ((tree.children group).map tree.mark) := by
  rw [selection, children]
  cases found : tree.row? group with
  | none => rfl
  | some row => rw [Option.getD_some, Forest.selection, sound.selections_row? found]

end Sound

end Tree

end WhereEditor
