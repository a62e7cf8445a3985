import WhereEditor.Proofs.Tree.Arity

/-!
A tree taken apart at one of its rows: the row, and around it one layer for each group that it lies
in. Main statements: a tree can be taken apart at any of its nodes; an edit that acts at a node acts
in the row of the node and leaves the layers as they are, except that a node that is taken out may
leave groups behind that have to be settled, from the inside out.
-/

namespace WhereEditor

structure Layer where
  left : Forest
  id : NodeId
  right : Forest

namespace Forest

def within (row : Forest) : List Layer → Forest
  | [] => row
  | layer :: outer => (layer.left ++ group layer.id row layer.right).within outer

inductive Item (id : NodeId) : Forest → Prop where
  | clause (body : Clause) : Item id (clause id body nil)
  | group (members : Forest) : Item id (group id members nil)

end Forest

def Layer.holder : List Layer → NodeId
  | [] => NodeId.root
  | layer :: _ => layer.id

def Layer.ids : List Layer → List NodeId
  | [] => []
  | layer :: outer => layer.id :: (layer.left.ids ++ layer.right.ids ++ ids outer)

namespace Forest

/-! ## Taking a tree apart -/

theorem exists_cut_of_mem {row : Forest} {target : NodeId} (member : target ∈ row.ids)
    (before : Forest) (outer : List Layer) :
    ∃ left item right layers,
      (before ++ row).within outer = (left ++ (item ++ right)).within layers ∧
        Item target item := by
  induction row generalizing before outer with
  | nil => exact absurd member List.not_mem_nil
  | clause id body rest ih =>
      rcases List.mem_cons.mp member with rfl | later
      · exact ⟨before, clause target body nil, rest, outer, rfl, .clause body⟩
      · have cut := ih later (before ++ clause id body nil) outer
        rwa [append_assoc] at cut
  | group id members rest inner ih =>
      rcases List.mem_cons.mp member with rfl | deeper
      · exact ⟨before, group target members nil, rest, outer, rfl, .group members⟩
      · rcases List.mem_append.mp deeper with here | later
        · exact inner here nil (⟨before, id, rest⟩ :: outer)
        · have cut := ih later (before ++ group id members nil) outer
          rwa [append_assoc] at cut

theorem exists_cut {row : Forest} {target : NodeId} (member : target ∈ row.ids) :
    ∃ left item right layers,
      row = (left ++ (item ++ right)).within layers ∧ Item target item :=
  exists_cut_of_mem member nil []

theorem height_add_length_le (row : Forest) (layers : List Layer) :
    row.height + layers.length ≤ (row.within layers).height := by
  induction layers generalizing row with
  | nil => exact Nat.le_refl _
  | cons layer outer ih =>
      have around := ih (layer.left ++ group layer.id row layer.right)
      simp only [height_append, height] at around
      simp only [within, List.length_cons]
      omega

theorem ids_within_perm (row : Forest) (layers : List Layer) :
    (row.within layers).ids.Perm (row.ids ++ Layer.ids layers) := by
  induction layers generalizing row with
  | nil => simp [within, Layer.ids]
  | cons layer outer ih =>
      refine (ih (layer.left ++ group layer.id row layer.right)).trans ?_
      refine List.perm_iff_count.mpr fun id => ?_
      simp only [ids_append, ids, Layer.ids, List.count_append, List.count_cons]
      omega

theorem nodup_within_iff {row : Forest} {layers : List Layer} :
    (row.within layers).ids.Nodup ↔
      row.ids.Nodup ∧ (Layer.ids layers).Nodup ∧ ∀ id ∈ row.ids, id ∉ Layer.ids layers := by
  rw [(row.ids_within_perm layers).nodup_iff, List.nodup_append]
  refine and_congr_right fun _ => and_congr_right fun _ => ?_
  exact ⟨fun apart id here there => apart id here id there rfl,
    fun apart id here other there same => apart id here (same ▸ there)⟩

theorem Item.heads {id : NodeId} {item : Forest} (isItem : Item id item) : item.heads = [id] := by
  cases isItem <;> rfl

theorem Item.mem_ids {id : NodeId} {item : Forest} (isItem : Item id item) : id ∈ item.ids := by
  cases isItem <;> exact List.mem_cons_self

theorem eq_nil_of_width_eq_zero {row : Forest} (none : row.width = 0) : row = nil := by
  cases row with
  | nil => rfl
  | clause id body rest => exact absurd none (Nat.succ_ne_zero _)
  | group id members rest => exact absurd none (Nat.succ_ne_zero _)

theorem eq_nil_or_exists_item (row : Forest) :
    row = nil ∨ ∃ id item rest, row = item ++ rest ∧ Item id item := by
  cases row with
  | nil => exact .inl rfl
  | clause id body rest => exact .inr ⟨id, clause id body nil, rest, rfl, .clause body⟩
  | group id members rest => exact .inr ⟨id, group id members nil, rest, rfl, .group members⟩

theorem exists_item_of_width_eq_one {row : Forest} (one : row.width = 1) : ∃ id, Item id row := by
  cases row with
  | nil => exact absurd one (by decide)
  | clause id body rest =>
      rw [eq_nil_of_width_eq_zero (Nat.succ_inj.mp one)]
      exact ⟨id, .clause body⟩
  | group id members rest =>
      rw [eq_nil_of_width_eq_zero (Nat.succ_inj.mp one)]
      exact ⟨id, .group members⟩

theorem not_mem_of_item {left item right : Forest} {target : NodeId}
    (distinct : (left ++ (item ++ right)).ids.Nodup) (isItem : Item target item) :
    target ∉ left.ids ∧ target ∉ right.ids := by
  simp only [ids_append] at distinct
  obtain ⟨_, itemDistinct, notLeft⟩ := List.nodup_append.mp distinct
  obtain ⟨_, _, notRight⟩ := List.nodup_append.mp itemDistinct
  have here := isItem.mem_ids
  exact ⟨fun there => notLeft target there target (List.mem_append_left _ here) rfl,
    fun there => notRight target here target there rfl⟩

theorem filter_heads_of_item {left item right : Forest} {target : NodeId}
    (distinct : (left ++ (item ++ right)).ids.Nodup) (isItem : Item target item) :
    (left ++ (item ++ right)).heads.filter (· != target) = (left ++ right).heads := by
  obtain ⟨notLeft, notRight⟩ := not_mem_of_item distinct isItem
  have kept : ∀ {side : Forest}, target ∉ side.ids →
      side.heads.filter (· != target) = side.heads := by
    intro side absent
    refine List.filter_eq_self.mpr fun id member => ?_
    have different : id ≠ target := fun same =>
      absent (same ▸ side.heads_sublist_ids.subset member)
    simpa using different
  simp [isItem.heads, kept notLeft, kept notRight]

theorem not_mem_of_cut {left item right : Forest} {target : NodeId} {layers : List Layer}
    (distinct : ((left ++ (item ++ right)).within layers).ids.Nodup) (isItem : Item target item) :
    target ∉ Layer.ids layers ∧ target ∉ left.ids ∧ target ∉ right.ids := by
  obtain ⟨rowDistinct, _, outside⟩ := nodup_within_iff.mp distinct
  have here := isItem.mem_ids
  exact ⟨outside target (by simp [here]), not_mem_of_item rowDistinct isItem⟩

/-! ## Edits at a node -/

/-- An edit that changes nothing but the row in which a node stands. -/
structure ActsAt (target : NodeId) (edit : Forest → Forest) : Prop where
  absent : ∀ {row : Forest}, target ∉ row.ids → edit row = row
  after : ∀ {row tail : Forest}, target ∉ row.ids → edit (row ++ tail) = row ++ edit tail
  before : ∀ {row tail : Forest}, target ∉ tail.ids → edit (row ++ tail) = edit row ++ tail
  inside : ∀ {id : NodeId} {members : Forest}, id ≠ target →
    edit (group id members nil) = group id (edit members) nil

namespace ActsAt

variable {target : NodeId} {edit : Forest → Forest}

theorem within (acts : ActsAt target edit) (row : Forest) {layers : List Layer}
    (outside : target ∉ Layer.ids layers) : edit (row.within layers) = (edit row).within layers := by
  induction layers generalizing row with
  | nil => rfl
  | cons layer outer ih =>
      simp only [Layer.ids, List.mem_cons, List.mem_append, not_or] at outside
      obtain ⟨other, ⟨notLeft, notRight⟩, further⟩ := outside
      have split : layer.left ++ group layer.id row layer.right =
          layer.left ++ (group layer.id row nil ++ layer.right) := rfl
      rw [Forest.within, ih _ further, split, acts.after notLeft, acts.before notRight,
        acts.inside (Ne.symm other)]
      rfl

/-- What an edit does at a node is said by what it does to a row of that node alone. -/
theorem cut (acts : ActsAt target edit) {left item right : Forest} {layers : List Layer}
    (distinct : ((left ++ (item ++ right)).within layers).ids.Nodup) (isItem : Item target item) :
    edit ((left ++ (item ++ right)).within layers) =
      (left ++ (edit item ++ right)).within layers := by
  obtain ⟨outside, notLeft, notRight⟩ := not_mem_of_cut distinct isItem
  rw [acts.within _ outside, acts.after notLeft, acts.before notRight]

end ActsAt

/-- It is enough to know that an edit goes past other nodes, and what it does at the node. -/
theorem actsAt_of_steps {target : NodeId} {edit : Forest → Forest} (nil : edit nil = nil)
    (clause : ∀ {id body rest}, id ≠ target → edit (clause id body rest) = clause id body (edit rest))
    (group : ∀ {id members rest}, id ≠ target →
      edit (group id members rest) = group id (edit members) (edit rest))
    (atClause : ∀ {body rest tail}, edit (rest ++ tail) = edit rest ++ tail →
      edit (Forest.clause target body (rest ++ tail)) =
        edit (Forest.clause target body rest) ++ tail)
    (atGroup : ∀ {members rest tail}, edit (rest ++ tail) = edit rest ++ tail →
      edit (Forest.group target members (rest ++ tail)) =
        edit (Forest.group target members rest) ++ tail) :
    ActsAt target edit := by
  have absent : ∀ {row : Forest}, target ∉ row.ids → edit row = row := by
    intro row missing
    induction row with
    | nil => exact nil
    | clause id body rest ih =>
        simp only [ids, List.mem_cons, not_or] at missing
        rw [clause (Ne.symm missing.1), ih missing.2]
    | group id members rest inner ih =>
        simp only [ids, List.mem_cons, List.mem_append, not_or] at missing
        rw [group (Ne.symm missing.1), inner missing.2.1, ih missing.2.2]
  refine ⟨absent, ?_, ?_, fun other => by rw [group other, nil]⟩
  · intro row tail missing
    induction row with
    | nil => rfl
    | clause id body rest ih =>
        simp only [ids, List.mem_cons, not_or] at missing
        rw [clause_append, clause (Ne.symm missing.1), ih missing.2]
        rfl
    | group id members rest _ ih =>
        simp only [ids, List.mem_cons, List.mem_append, not_or] at missing
        rw [group_append, group (Ne.symm missing.1), ih missing.2.2, absent missing.2.1]
        rfl
  · intro row tail missing
    induction row with
    | nil => rw [nil, nil_append, absent missing]
    | clause id body rest ih =>
        by_cases same : id = target
        · subst same
          exact atClause ih
        · rw [clause_append, clause same, clause same, ih]
          rfl
    | group id members rest _ ih =>
        by_cases same : id = target
        · subst same
          exact atGroup ih
        · rw [group_append, group same, group same, ih]
          rfl

theorem actsAt_insertBefore (target fresh : NodeId) (body : Clause) :
    ActsAt target (insertBefore target fresh body) := by
  refine actsAt_of_steps rfl (fun other => if_neg other) (fun other => if_neg other) ?_ ?_
  · intro here rest tail _
    simp [insertBefore]
  · intro members rest tail _
    simp [insertBefore]

theorem actsAt_insertAfter (target fresh : NodeId) (body : Clause) :
    ActsAt target (insertAfter target fresh body) := by
  refine actsAt_of_steps rfl (fun other => if_neg other) (fun other => if_neg other) ?_ ?_
  · intro here rest tail _
    simp [insertAfter]
  · intro members rest tail _
    simp [insertAfter]

theorem actsAt_ungroup (target : NodeId) : ActsAt target (ungroup target) := by
  refine actsAt_of_steps rfl (fun _ => rfl) (fun other => if_neg other) ?_ ?_
  · intro body rest tail later
    simp [ungroup, later]
  · intro members rest tail _
    simp [ungroup, append_assoc]

theorem actsAt_updateMembers (target : NodeId) (edit : Forest → Forest) :
    ActsAt target (updateMembers target edit) := by
  refine actsAt_of_steps rfl (fun _ => rfl) ?_ ?_ ?_
  · intro id members rest other
    rw [updateMembers, if_neg other]
  · intro body rest tail later
    simp [updateMembers, later]
  · intro members rest tail later
    simp [updateMembers, later]

/-! ## Taking out a node -/

def settleWithin (row : Forest) : List Layer → Forest
  | [] => row
  | layer :: outer =>
      if row.width = 0 then (layer.left ++ layer.right).settleWithin outer
      else if row.width = 1 then (layer.left ++ (row ++ layer.right)).within outer
      else row.within (layer :: outer)

theorem erase_of_not_mem {row : Forest} {target : NodeId} (absent : target ∉ row.ids) :
    row.erase target = row := by
  induction row with
  | nil => rfl
  | clause id body rest ih =>
      simp only [ids, List.mem_cons, not_or] at absent
      rw [erase, if_neg (Ne.symm absent.1), ih absent.2]
  | group id members rest inner ih =>
      simp only [ids, List.mem_cons, List.mem_append, not_or] at absent
      rw [erase, if_neg (Ne.symm absent.1), inner absent.2.1, ih absent.2.2]
      exact if_neg (Nat.lt_irrefl _)

theorem erase_append_of_not_mem {row tail : Forest} {target : NodeId} (absent : target ∉ row.ids) :
    (row ++ tail).erase target = row ++ tail.erase target := by
  induction row with
  | nil => rfl
  | clause id body rest ih =>
      simp only [ids, List.mem_cons, not_or] at absent
      rw [clause_append, erase, if_neg (Ne.symm absent.1), ih absent.2]
      rfl
  | group id members rest _ ih =>
      simp only [ids, List.mem_cons, List.mem_append, not_or] at absent
      rw [group_append, erase, if_neg (Ne.symm absent.1), ih absent.2.2,
        erase_of_not_mem absent.2.1]
      exact if_neg (Nat.lt_irrefl _)

theorem erase_within {row : Forest} {target : NodeId} {layers : List Layer}
    (outside : target ∉ Layer.ids layers) :
    (row.within layers).erase target =
      if (row.erase target).width < row.width then (row.erase target).settleWithin layers
      else (row.erase target).within layers := by
  induction layers generalizing row with
  | nil => simp [within, settleWithin]
  | cons layer outer ih =>
      simp only [Layer.ids, List.mem_cons, List.mem_append, not_or] at outside
      obtain ⟨other, ⟨notLeft, notRight⟩, further⟩ := outside
      rw [within, ih further, erase_append_of_not_mem notLeft, erase, if_neg (Ne.symm other),
        erase_of_not_mem notRight]
      generalize row.erase target = kept
      by_cases lost : kept.width < row.width
      · simp only [lost, if_true, settle_eq, settleWithin, width_append, width_group]
        by_cases none : kept.width = 0
        · have empty : kept = nil := eq_nil_of_width_eq_zero none
          subst empty
          simp
        · by_cases one : kept.width = 1
          · have few : kept.width < 2 := by omega
            have same : ¬ layer.left.width + (kept.width + layer.right.width) <
              layer.left.width + (layer.right.width + 1) := by omega
            rw [if_pos few, if_neg none, if_pos one, width_append, if_neg same]
          · have many : ¬ kept.width < 2 := by omega
            simp only [none, one, many, if_false, width_group, Nat.lt_irrefl]
            rfl
      · simp only [lost, if_false, width_append, width_group, Nat.lt_irrefl]
        rfl

theorem erase_cut {left item right : Forest} {target : NodeId} {layers : List Layer}
    (distinct : ((left ++ (item ++ right)).within layers).ids.Nodup) (isItem : Item target item) :
    ((left ++ (item ++ right)).within layers).erase target =
      (left ++ right).settleWithin layers := by
  obtain ⟨outside, notLeft, _⟩ := not_mem_of_cut distinct isItem
  have gone : (item ++ right).erase target = right := by
    cases isItem <;> exact if_pos rfl
  have one : item.width = 1 := by cases isItem <;> rfl
  rw [erase_within outside, erase_append_of_not_mem notLeft, gone]
  refine if_pos ?_
  simp only [width_append]
  omega

end Forest

end WhereEditor
