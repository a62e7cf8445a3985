import WhereEditor.Proofs.Tree.Layers

/-!
What the edits do to the ids of a forest. Edits that add a node add its id and no other; edits that
take nodes away leave some of the ids, in their order.
-/

namespace WhereEditor

namespace Forest

theorem nodup_ids_group {id : NodeId} {members rest : Forest}
    (distinct : (group id members rest).ids.Nodup) :
    id ∉ members.ids ∧ id ∉ rest.ids ∧ members.ids.Nodup ∧ rest.ids.Nodup ∧
      ∀ node ∈ members.ids, node ∉ rest.ids := by
  obtain ⟨outside, both⟩ := List.nodup_cons.mp distinct
  obtain ⟨membersDistinct, restDistinct, apart⟩ := List.nodup_append.mp both
  exact ⟨fun member => outside (List.mem_append_left _ member),
    fun member => outside (List.mem_append_right _ member), membersDistinct, restDistinct,
    fun node here there => apart node here node there rfl⟩

/-! ## Edits that take nodes away -/

theorem ids_settle_sublist (id : NodeId) (members rest : Forest) :
    (settle id members rest).ids.Sublist (id :: (members.ids ++ rest.ids)) := by
  rw [settle_eq]
  split
  · rw [ids_append]
    exact List.sublist_cons_self _ _
  · exact List.Sublist.refl _

theorem ids_erase_sublist (row : Forest) (target : NodeId) :
    (row.erase target).ids.Sublist row.ids := by
  induction row with
  | nil => exact List.Sublist.refl _
  | clause id body rest ih =>
      simp only [erase]
      split
      · exact List.sublist_cons_self _ _
      · exact ih.cons_cons id
  | group id members rest inner ih =>
      have kept : (id :: ((members.erase target).ids ++ (rest.erase target).ids)).Sublist
          (id :: (members.ids ++ rest.ids)) := (inner.append ih).cons_cons id
      simp only [erase]
      split
      · exact (List.sublist_append_right _ _).cons id
      · split
        · exact (ids_settle_sublist _ _ _).trans kept
        · exact kept

theorem ids_ungroup_sublist (row : Forest) (target : NodeId) :
    (row.ungroup target).ids.Sublist row.ids := by
  induction row with
  | nil => exact List.Sublist.refl _
  | clause id body rest ih => exact ih.cons_cons id
  | group id members rest inner ih =>
      simp only [ungroup]
      split
      · rw [ids_append]
        exact List.sublist_cons_self _ _
      · exact (inner.append ih).cons_cons id

/-! ## Edits that add a node -/

theorem ids_insertBefore_perm (row : Forest) (anchor fresh : NodeId) (body : Clause)
    (distinct : row.ids.Nodup) (present : anchor ∈ row.ids) :
    (row.insertBefore anchor fresh body).ids.Perm (fresh :: row.ids) := by
  induction row with
  | nil => exact absurd present List.not_mem_nil
  | clause id here rest ih =>
      simp only [insertBefore]
      split
      · exact List.Perm.refl _
      · rename_i other
        have later := (List.mem_cons.mp present).resolve_left (Ne.symm other)
        exact ((ih (List.nodup_cons.mp distinct).2 later).cons id).trans (List.Perm.swap _ _ _)
  | group id members rest inner ih =>
      simp only [insertBefore]
      split
      · exact List.Perm.refl _
      · rename_i other
        obtain ⟨_, _, membersDistinct, restDistinct, apart⟩ := nodup_ids_group distinct
        have deeper := (List.mem_cons.mp present).resolve_left (Ne.symm other)
        refine List.Perm.trans (List.Perm.cons id ?_) (List.Perm.swap _ _ _)
        rcases List.mem_append.mp deeper with here | later
        · rw [(actsAt_insertBefore anchor fresh body).absent (apart anchor here)]
          exact (inner membersDistinct here).append_right rest.ids
        · have absent : anchor ∉ members.ids := fun there => apart anchor there later
          rw [(actsAt_insertBefore anchor fresh body).absent absent]
          exact ((ih restDistinct later).append_left members.ids).trans List.perm_middle

theorem ids_insertAfter_perm (row : Forest) (anchor fresh : NodeId) (body : Clause) :
    (row.insertAfter anchor fresh body).ids.Perm (row.insertBefore anchor fresh body).ids := by
  induction row with
  | nil => exact List.Perm.refl _
  | clause id here rest ih =>
      simp only [insertAfter, insertBefore]
      split
      · exact List.Perm.swap _ _ _
      · exact ih.cons id
  | group id members rest inner ih =>
      simp only [insertAfter, insertBefore]
      split
      · exact (List.perm_middle.cons id).trans (List.Perm.swap _ _ _)
      · exact (inner.append ih).cons id

theorem ids_wrap_perm (row : Forest) (start count : Nat) (fresh : NodeId) :
    (row.wrap start count fresh).ids.Perm (fresh :: row.ids) := by
  have cut := congrArg ids (take_append_drop row start)
  have run := congrArg ids (take_append_drop (row.drop start) count)
  rw [ids_append] at cut run
  rw [drop_drop] at run
  rw [wrap, ids_append, ← cut, ← run]
  exact List.perm_middle

/-! ## The group of an id -/

theorem members?_group (target id : NodeId) (members rest : Forest) :
    (group id members rest).members? target =
      if id = target then some members
      else (members.members? target).or (rest.members? target) := by
  simp [members?]

theorem members?_append (target : NodeId) (row tail : Forest) :
    (row ++ tail).members? target = (row.members? target).or (tail.members? target) := by
  induction row with
  | nil => rfl
  | clause id body rest ih => simpa [members?] using ih
  | group id members rest _ ih =>
      rw [group_append, members?_group, members?_group, ih]
      split
      · rfl
      · rw [Option.or_assoc]

theorem mem_ids_of_members? {row found : Forest} {target : NodeId}
    (present : row.members? target = some found) : target ∈ row.ids := by
  induction row with
  | nil => exact absurd present (by simp [members?])
  | clause id body rest ih => exact List.mem_cons_of_mem _ (ih present)
  | group id members rest inner ih =>
      rw [members?_group] at present
      split at present
      · rename_i same
        exact same ▸ List.mem_cons_self
      · rcases Option.or_eq_some_iff.mp present with here | ⟨_, later⟩
        · exact List.mem_cons_of_mem _ (List.mem_append_left _ (inner here))
        · exact List.mem_cons_of_mem _ (List.mem_append_right _ (ih later))

theorem members?_eq_none {row : Forest} {target : NodeId} (absent : target ∉ row.ids) :
    row.members? target = none :=
  Option.eq_none_iff_forall_ne_some.mpr fun _ present => absent (mem_ids_of_members? present)

theorem members?_group_eq_some_iff {target id : NodeId} {members rest found : Forest}
    (distinct : (group id members rest).ids.Nodup) :
    (group id members rest).members? target = some found ↔
      target = id ∧ found = members ∨ members.members? target = some found ∨
        rest.members? target = some found := by
  obtain ⟨inside, outside, _, _, apart⟩ := nodup_ids_group distinct
  rw [members?_group]
  by_cases same : id = target
  · subst same
    simp [members?_eq_none inside, members?_eq_none outside, eq_comm]
  · rw [if_neg same, Option.or_eq_some_iff]
    constructor
    · rintro (here | ⟨_, later⟩)
      · exact .inr (.inl here)
      · exact .inr (.inr later)
    · rintro (⟨equal, _⟩ | here | later)
      · exact absurd equal.symm same
      · exact .inl here
      · have absent : target ∉ members.ids := fun there =>
          apart target there (mem_ids_of_members? later)
        exact .inr ⟨members?_eq_none absent, later⟩

/-- Where ids are distinct, the group of an id stands in one place only: it is reached along a row
and down into groups with other ids. -/
@[elab_as_elim]
theorem members?_induction {target : NodeId} {found : Forest} {motive : Forest → Prop}
    (here : ∀ rest, target ∉ rest.ids → motive (group target found rest))
    (clause : ∀ id body rest, motive rest → motive (clause id body rest))
    (inside : ∀ id members rest, id ≠ target → target ∉ rest.ids → motive members →
      motive (group id members rest))
    (later : ∀ id members rest, id ≠ target → target ∉ members.ids → motive rest →
      motive (group id members rest))
    (row : Forest) (distinct : row.ids.Nodup) (present : row.members? target = some found) :
    motive row := by
  induction row with
  | nil => exact absurd present (by simp [members?])
  | clause id body rest ih => exact clause id body rest (ih (List.nodup_cons.mp distinct).2 present)
  | group id members rest inner ih =>
      obtain ⟨notInside, notOutside, membersDistinct, restDistinct, apart⟩ :=
        nodup_ids_group distinct
      rcases (members?_group_eq_some_iff distinct).mp present with ⟨rfl, rfl⟩ | deeper | further
      · exact here rest notOutside
      · have member := mem_ids_of_members? deeper
        have other : id ≠ target := fun same => notInside (same ▸ member)
        exact inside id members rest other (apart target member) (inner membersDistinct deeper)
      · have member := mem_ids_of_members? further
        have other : id ≠ target := fun same => notOutside (same ▸ member)
        exact later id members rest other (fun there => apart target there member)
          (ih restDistinct further)

/-! ## Edits inside a group -/

theorem updateMembers_of_members?_eq_none {row : Forest} {target : NodeId}
    (missing : row.members? target = none) (edit : Forest → Forest) :
    row.updateMembers target edit = row := by
  induction row with
  | nil => rfl
  | clause id body rest ih => rw [updateMembers, ih missing]
  | group id members rest inner ih =>
      rw [members?_group] at missing
      split at missing
      · exact absurd missing (by simp)
      · rename_i other
        obtain ⟨here, later⟩ := Option.or_eq_none_iff.mp missing
        rw [updateMembers, if_neg other, inner here, ih later]

theorem updateMembers_updateMembers (row : Forest) (target : NodeId)
    (first second : Forest → Forest) :
    (row.updateMembers target first).updateMembers target second =
      row.updateMembers target fun members => second (first members) := by
  induction row with
  | nil => rfl
  | clause id body rest ih => simp [updateMembers, ih]
  | group id members rest inner ih =>
      by_cases same : id = target
      · simp [updateMembers, same, ih]
      · simp [updateMembers, same, inner, ih]

theorem exists_ids_updateMembers {row found : Forest} {target : NodeId}
    (distinct : row.ids.Nodup) (present : row.members? target = some found) :
    ∃ before beyond, row.ids = before ++ (found.ids ++ beyond) ∧
      ∀ edit, (row.updateMembers target edit).ids = before ++ ((edit found).ids ++ beyond) := by
  refine members?_induction ?_ ?_ ?_ ?_ row distinct present
  · intro rest absent
    refine ⟨[target], rest.ids, rfl, fun edit => ?_⟩
    rw [updateMembers, if_pos rfl, (actsAt_updateMembers target _).absent absent]
    rfl
  · rintro id body rest ⟨before, beyond, whole, edited⟩
    refine ⟨id :: before, beyond, by rw [ids, whole]; rfl, fun edit => ?_⟩
    rw [updateMembers, ids, edited]
    rfl
  · rintro id members rest other absent ⟨before, beyond, whole, edited⟩
    refine ⟨id :: before, beyond ++ rest.ids, by simp [ids, whole], fun edit => ?_⟩
    rw [updateMembers, if_neg other, (actsAt_updateMembers target _).absent absent, ids, edited]
    simp
  · rintro id members rest other absent ⟨before, beyond, whole, edited⟩
    refine ⟨id :: (members.ids ++ before), beyond, by simp [ids, whole], fun edit => ?_⟩
    rw [updateMembers, if_neg other, (actsAt_updateMembers target _).absent absent, ids, edited]
    simp

theorem exists_layers_of_members? {row found : Forest} {target : NodeId}
    (distinct : row.ids.Nodup) (present : row.members? target = some found) :
    ∃ left right layers, row = (left ++ group target found right).within layers := by
  have onwards : ∀ (before : Forest) (outer : List Layer), ∃ left right layers,
      (before ++ row).within outer = (left ++ group target found right).within layers := by
    refine members?_induction ?_ ?_ ?_ ?_ row distinct present
    · exact fun rest _ before outer => ⟨before, rest, outer, rfl⟩
    · intro id body rest cut before outer
      have further := cut (before ++ clause id body nil) outer
      rwa [append_assoc] at further
    · exact fun id members rest _ _ cut before outer => cut nil (⟨before, id, rest⟩ :: outer)
    · intro id members rest _ _ cut before outer
      have further := cut (before ++ group id members nil) outer
      rwa [append_assoc] at further
  exact onwards nil []

variable {least : Nat}

theorem AtLeast.members? {row found : Forest} {target : NodeId} (bound : row.AtLeast least)
    (present : row.members? target = some found) : least ≤ found.width ∧ found.AtLeast least := by
  induction row with
  | nil => exact absurd present (by simp [Forest.members?])
  | clause id body rest ih => exact ih bound present
  | group id members rest inner ih =>
      obtain ⟨enough, membersBound, restBound⟩ := bound
      rw [members?_group] at present
      split at present
      · rw [← Option.some.inj present]
        exact ⟨enough, membersBound⟩
      · rcases Option.or_eq_some_iff.mp present with deeper | ⟨_, further⟩
        · exact inner membersBound deeper
        · exact ih restBound further

theorem AtLeast.updateMembers {row found : Forest} {target : NodeId} (bound : row.AtLeast least)
    (distinct : row.ids.Nodup) (present : row.members? target = some found)
    {edit : Forest → Forest} (enough : least ≤ (edit found).width)
    (edited : (edit found).AtLeast least) : (row.updateMembers target edit).AtLeast least := by
  revert bound
  refine members?_induction ?_ ?_ ?_ ?_ row distinct present
  · rintro rest absent ⟨_, _, restBound⟩
    rw [Forest.updateMembers, if_pos rfl, (actsAt_updateMembers target _).absent absent]
    exact ⟨enough, edited, restBound⟩
  · exact fun id body rest kept bound => kept bound
  · rintro id members rest other absent kept ⟨wide, membersBound, restBound⟩
    rw [Forest.updateMembers, if_neg other, (actsAt_updateMembers target _).absent absent]
    exact ⟨by simpa using wide, kept membersBound, restBound⟩
  · rintro id members rest other absent kept ⟨wide, membersBound, restBound⟩
    rw [Forest.updateMembers, if_neg other, (actsAt_updateMembers target _).absent absent]
    exact ⟨wide, membersBound, kept restBound⟩

end Forest

end WhereEditor
