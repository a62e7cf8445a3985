import Mathlib.Data.Finset.Lattice.Lemmas
import WhereEditor.Proofs.Tree.Ascent
import WhereEditor.Proofs.Tree.Identity

/-!
A tree without the brackets of some of its groups, whose items stand in their place. Main statement:
ungrouping some groups one by one, in any order and however they lie in each other, leaves the tree
without the brackets of all of them, and so it does in the slots.
-/

namespace WhereEditor

open Relation

namespace Forest

def unwrap (gone : Finset NodeId) : Forest → Forest
  | nil => nil
  | clause id body rest => clause id body (rest.unwrap gone)
  | group id members rest =>
      if id ∈ gone then members.unwrap gone ++ rest.unwrap gone
      else group id (members.unwrap gone) (rest.unwrap gone)

end Forest

namespace Tree

def unwrap (tree : Tree) (gone : Finset NodeId) : Tree := { tree with row := tree.row.unwrap gone }

def Goes (tree : Tree) (gone : Finset NodeId) (id : NodeId) : Prop :=
  id ∈ gone ∧ id ≠ NodeId.root ∧ tree.isGroup id = true

/-- One of the groups that are to go gives way to its own items. -/
inductive Opens (tree : Tree) (gone : Finset NodeId) : List NodeId → List NodeId → Prop
  | at {group} (goes : tree.Goes gone group) (before beyond : List NodeId) :
      Opens tree gone (before ++ group :: beyond) (before ++ (tree.children group ++ beyond))

end Tree

namespace Forest

variable {row : Forest} {target : NodeId}

/-! ## One group and several -/

theorem unwrap_append (gone : Finset NodeId) (row tail : Forest) :
    (row ++ tail).unwrap gone = row.unwrap gone ++ tail.unwrap gone := by
  induction row with
  | nil => rfl
  | clause id body rest ih => simp [unwrap, ih]
  | group id members rest _ ih =>
      by_cases taken : id ∈ gone
      · simp [unwrap, taken, ih, append_assoc]
      · simp [unwrap, taken, ih]

theorem unwrap_unwrap (first second : Finset NodeId) (row : Forest) :
    (row.unwrap first).unwrap second = row.unwrap (first ∪ second) := by
  induction row with
  | nil => rfl
  | clause id body rest ih => simp [unwrap, ih]
  | group id members rest inner ih =>
      by_cases early : id ∈ first
      · simp [unwrap, early, unwrap_append, inner, ih]
      · by_cases late : id ∈ second
        · simp [unwrap, early, late, inner, ih]
        · simp [unwrap, early, late, inner, ih]

theorem unwrap_eq_self {gone : Finset NodeId} (apart : ∀ id ∈ row.ids, id ∉ gone) :
    row.unwrap gone = row := by
  induction row with
  | nil => rfl
  | clause id body rest ih =>
      obtain ⟨_, later⟩ := List.forall_mem_cons.mp apart
      rw [unwrap, ih later]
  | group id members rest inner ih =>
      obtain ⟨here, deeper⟩ := List.forall_mem_cons.mp apart
      obtain ⟨inside, later⟩ := List.forall_mem_append.mp deeper
      rw [unwrap, if_neg here, inner inside, ih later]

theorem ungroup_eq_unwrap (distinct : row.ids.Nodup) : row.ungroup target = row.unwrap {target} := by
  have apart : ∀ {row : Forest}, target ∉ row.ids → row.unwrap {target} = row := by
    intro row absent
    refine unwrap_eq_self fun id member taken => absent ?_
    rw [← Finset.mem_singleton.mp taken]
    exact member
  induction row with
  | nil => rfl
  | clause id body rest ih => rw [ungroup, unwrap, ih (List.nodup_cons.mp distinct).2]
  | group id members rest inner ih =>
      obtain ⟨inside, outside, membersDistinct, restDistinct, _⟩ := nodup_ids_group distinct
      by_cases same : id = target
      · subst same
        rw [ungroup, if_pos rfl, unwrap, if_pos (Finset.mem_singleton_self id), apart inside,
          apart outside]
      · have kept : id ∉ ({target} : Finset NodeId) := by simpa using same
        rw [ungroup, if_neg same, unwrap, if_neg kept, inner membersDistinct, ih restDistinct]

/-! ## What is left of a row -/

theorem clauses_unwrap (gone : Finset NodeId) (row : Forest) :
    (row.unwrap gone).clauses = row.clauses := by
  induction row with
  | nil => rfl
  | clause id body rest ih => rw [unwrap, clauses, clauses, ih]
  | group id members rest inner ih =>
      by_cases taken : id ∈ gone
      · rw [unwrap, if_pos taken, clauses_append, inner, ih, clauses]
      · rw [unwrap, if_neg taken, clauses, clauses, inner, ih]

theorem ids_unwrap_sublist (gone : Finset NodeId) (row : Forest) :
    (row.unwrap gone).ids.Sublist row.ids := by
  induction row with
  | nil => exact List.Sublist.refl _
  | clause id body rest ih => exact ih.cons_cons id
  | group id members rest inner ih =>
      by_cases taken : id ∈ gone
      · rw [unwrap, if_pos taken, ids_append]
        exact (inner.append ih).cons id
      · rw [unwrap, if_neg taken]
        exact (inner.append ih).cons_cons id

theorem mem_ids_unwrap {gone : Finset NodeId} (distinct : row.ids.Nodup) :
    target ∈ (row.unwrap gone).ids ↔
      target ∈ row.ids ∧ (target ∈ gone → row.members? target = none) := by
  induction row with
  | nil => simp [unwrap, ids]
  | clause id body rest ih =>
      obtain ⟨outside, restDistinct⟩ := List.nodup_cons.mp distinct
      rw [unwrap, ids, ids, List.mem_cons, List.mem_cons, ih restDistinct, members?]
      by_cases same : target = id
      · subst same
        simp [members?_eq_none outside]
      · simp [same]
  | group id members rest inner ih =>
      obtain ⟨inside, outside, membersDistinct, restDistinct, apart⟩ := nodup_ids_group distinct
      have both : target ∈ (members.unwrap gone).ids ++ (rest.unwrap gone).ids ↔
          target ∈ members.ids ++ rest.ids ∧
            (target ∈ gone → (members.members? target).or (rest.members? target) = none) := by
        rw [List.mem_append, List.mem_append, inner membersDistinct, ih restDistinct]
        constructor
        · rintro (⟨here, kept⟩ | ⟨later, kept⟩)
          · have absent := members?_eq_none (apart target here)
            exact ⟨.inl here, fun taken => by rw [kept taken, absent, Option.or_none]⟩
          · have absent := members?_eq_none fun here => apart target here later
            exact ⟨.inr later, fun taken => by rw [kept taken, absent, Option.or_none]⟩
        · rintro ⟨here | later, kept⟩
          · exact .inl ⟨here, fun taken => (Option.or_eq_none_iff.mp (kept taken)).1⟩
          · exact .inr ⟨later, fun taken => (Option.or_eq_none_iff.mp (kept taken)).2⟩
      rw [members?_group, ids, List.mem_cons]
      by_cases same : target = id
      · subst same
        have lost : ∀ {row : Forest}, target ∉ row.ids → target ∉ (row.unwrap gone).ids :=
          fun absent member => absent ((ids_unwrap_sublist gone _).subset member)
        by_cases taken : target ∈ gone
        · simp [unwrap, taken, lost inside, lost outside]
        · simp [unwrap, taken, ids]
      · rw [if_neg (Ne.symm same)]
        by_cases taken : id ∈ gone
        · rw [unwrap, if_pos taken, ids_append, both]
          simp [same]
        · rw [unwrap, if_neg taken, ids, List.mem_cons, both]
          simp [same]

theorem members?_unwrap (gone : Finset NodeId) (distinct : row.ids.Nodup) :
    (row.unwrap gone).members? target =
      if target ∈ gone then none else (row.members? target).map (unwrap gone) := by
  induction row with
  | nil => simp [unwrap, members?]
  | clause id body rest ih => exact ih (List.nodup_cons.mp distinct).2
  | group id members rest inner ih =>
      obtain ⟨inside, outside, membersDistinct, restDistinct, _⟩ := nodup_ids_group distinct
      have here := inner membersDistinct
      have later := ih restDistinct
      by_cases taken : id ∈ gone
      · rw [unwrap, if_pos taken, members?_append, here, later, members?_group]
        by_cases lost : target ∈ gone
        · simp [lost]
        · have other : id ≠ target := fun same => lost (same ▸ taken)
          simp only [lost, other, if_false, Option.map_or]
      · rw [unwrap, if_neg taken, members?_group, here, later, members?_group]
        by_cases same : id = target
        · subst same
          simp [taken]
        · by_cases lost : target ∈ gone
          · simp [same, lost]
          · simp only [same, lost, if_false, Option.map_or]

end Forest

namespace Tree

variable {tree : Tree} {gone : Finset NodeId} {id item : NodeId} {items later : List NodeId}

theorem Opens.around (opens : tree.Opens gone items later) (left right : List NodeId) :
    tree.Opens gone (left ++ (items ++ right)) (left ++ (later ++ right)) := by
  obtain ⟨goes, before, beyond⟩ := opens
  have wider := Opens.at goes (left ++ before) (beyond ++ right)
  simpa only [List.append_assoc, List.cons_append] using wider

theorem opens_around (opens : ReflTransGen (tree.Opens gone) items later)
    (left right : List NodeId) :
    ReflTransGen (tree.Opens gone) (left ++ (items ++ right)) (left ++ (later ++ right)) :=
  ReflTransGen.lift (fun items => left ++ (items ++ right))
    (fun _ _ step => step.around left right) _ _ opens

/-- From the items of a row to those of the row without the groups that go, group by group from the
left, and each group before those in it. -/
theorem opens_heads_unwrap (row : Forest) (distinct : row.ids.Nodup)
    (inner : NodeId.root ∉ row.ids)
    (held : ∀ id members, row.members? id = some members → tree.row? id = some members) :
    ReflTransGen (tree.Opens gone) row.heads (row.unwrap gone).heads := by
  induction row with
  | nil => exact ReflTransGen.refl
  | clause id body rest ih =>
      have further := ih (List.nodup_cons.mp distinct).2
        (fun member => inner (List.mem_cons_of_mem _ member)) held
      simpa [Forest.heads, Forest.unwrap] using opens_around further [id] []
  | group id members rest deeper ih =>
      obtain ⟨_, _, membersDistinct, restDistinct, _⟩ := Forest.nodup_ids_group distinct
      simp only [Forest.ids, List.mem_cons, List.mem_append, not_or] at inner
      obtain ⟨other, notInside, notLater⟩ := inner
      have below := deeper membersDistinct notInside fun id row here =>
        held id row ((Forest.members?_group_eq_some_iff distinct).mpr (.inr (.inl here)))
      have further := ih restDistinct notLater fun id row there =>
        held id row ((Forest.members?_group_eq_some_iff distinct).mpr (.inr (.inr there)))
      have own : tree.row? id = some members :=
        held id members ((Forest.members?_group_eq_some_iff distinct).mpr (.inl ⟨rfl, rfl⟩))
      by_cases taken : id ∈ gone
      · have goes : tree.Goes gone id := ⟨taken, Ne.symm other, by rw [isGroup, own]; rfl⟩
        have opened := Opens.at goes [] rest.heads
        rw [children, own, Option.getD_some] at opened
        rw [Forest.unwrap, if_pos taken, Forest.heads_append]
        have first := opens_around below [] rest.heads
        have second := opens_around further (members.unwrap gone).heads []
        simp only [List.nil_append, List.append_nil] at first second
        exact (ReflTransGen.head opened first).trans second
      · rw [Forest.unwrap, if_neg taken]
        simpa [Forest.heads] using opens_around further [id] []

theorem clauses_unwrap (tree : Tree) (gone : Finset NodeId) :
    (tree.unwrap gone).clauses = tree.clauses :=
  tree.row.clauses_unwrap gone

namespace Sound

theorem foldl_ungroup (sound : tree.Sound) (order : List NodeId) :
    (order.foldl Tree.ungroup tree).Sound ∧
      order.foldl Tree.ungroup tree = tree.unwrap order.toFinset := by
  induction order generalizing tree with
  | nil =>
      have same : tree.row.unwrap ∅ = tree.row := Forest.unwrap_eq_self (by simp)
      exact ⟨sound, by rw [List.foldl_nil, List.toFinset_nil, Tree.unwrap, same]⟩
  | cons id later ih =>
      obtain ⟨kept, rest⟩ := ih (sound.ungroup (Nat.le_refl 1) id)
      refine ⟨kept, ?_⟩
      rw [List.foldl_cons, rest, Tree.ungroup, Tree.unwrap, Tree.unwrap,
        Forest.ungroup_eq_unwrap sound.distinct, Forest.unwrap_unwrap, List.toFinset_cons,
        Finset.insert_eq]

theorem row?_unwrap (sound : tree.Sound) (gone : Finset NodeId) (id : NodeId) :
    (tree.unwrap gone).row? id =
      if id ∈ gone ∧ id ≠ NodeId.root then none else (tree.row? id).map (Forest.unwrap gone) := by
  by_cases outer : id = NodeId.root
  · simp [outer, row?_root, Tree.unwrap]
  · rw [row?_of_ne outer, row?_of_ne outer, Tree.unwrap, Forest.members?_unwrap gone sound.distinct]
    simp [outer]

theorem isGroup_unwrap_iff (sound : tree.Sound) (gone : Finset NodeId) (id : NodeId) :
    (tree.unwrap gone).isGroup id = true ↔ tree.isGroup id = true ∧ ¬ tree.Goes gone id := by
  rw [isGroup, sound.row?_unwrap, Goes, isGroup]
  by_cases taken : id ∈ gone ∧ id ≠ NodeId.root
  · simp [taken, Option.isSome_iff_ne_none]
  · rw [if_neg taken, Option.isSome_map]
    exact ⟨fun live => ⟨live, fun goes => taken ⟨goes.1, goes.2.1⟩⟩, And.left⟩

theorem contains_unwrap_iff (sound : tree.Sound) (gone : Finset NodeId) (id : NodeId) :
    (tree.unwrap gone).contains id = true ↔ tree.contains id = true ∧ ¬ tree.Goes gone id := by
  rw [contains_iff, contains_iff, Tree.unwrap, Forest.mem_ids_unwrap sound.distinct, Goes, isGroup]
  by_cases outer : id = NodeId.root
  · simp [outer]
  · simp [outer, row?_of_ne outer, Option.isSome_iff_ne_none]

theorem opens_children (sound : tree.Sound) (stays : ¬ tree.Goes gone id) :
    ReflTransGen (tree.Opens gone) (tree.children id) ((tree.unwrap gone).children id) := by
  rw [children, children, sound.row?_unwrap]
  cases found : tree.row? id with
  | none =>
      simp only [Option.map_none, ite_self, Option.getD_none]
      exact ReflTransGen.refl
  | some row =>
      have here : ¬ (id ∈ gone ∧ id ≠ NodeId.root) := fun both =>
        stays ⟨both.1, both.2, by rw [isGroup, found]; rfl⟩
      rw [if_neg here, Option.map_some, Option.getD_some, Option.getD_some]
      obtain ⟨layers, _, whole, _⟩ := sound.exists_layers found
      have rooted := sound.root_not_mem
      rw [whole, (row.ids_within_perm layers).mem_iff, List.mem_append, not_or] at rooted
      obtain ⟨distinct, _, apart⟩ := Forest.nodup_within_iff.mp (whole ▸ sound.distinct)
      refine opens_heads_unwrap row distinct rooted.1 fun node members below => ?_
      have inside := Forest.mem_ids_of_members? below
      have inner : node ≠ NodeId.root := fun same => rooted.1 (same ▸ inside)
      rw [row?_of_ne inner, whole, Forest.members?_within (apart node inside), below]

end Sound

/-- Groups that are ungrouped one after the other leave the same tree in any order. They are gone,
all other nodes stay, the clauses stay as they were, and every other group has its items with each of
the groups that went replaced by its own, again and again until none is left. The slots show what
the tree does, before and after. -/
theorem foldl_ungroup_after (edits : List Edit) (order : List NodeId) :
    let tree := after edits
    let gone := order.toFinset
    let bare := tree.unwrap gone
    let slots := Arena.after edits
    order.foldl ungroup tree = bare ∧
      slots.view = tree.view ∧ (order.foldl Arena.ungroup slots).view = bare.view ∧
      (∀ id, bare.contains id = true ↔ tree.contains id = true ∧ ¬ tree.Goes gone id) ∧
      (∀ id, bare.isGroup id = true ↔ tree.isGroup id = true ∧ ¬ tree.Goes gone id) ∧
      bare.clauses = tree.clauses ∧
      ∀ id, ¬ tree.Goes gone id →
        ReflTransGen (tree.Opens gone) (tree.children id) (bare.children id) ∧
          ∀ item ∈ bare.children id, ¬ tree.Goes gone item := by
  intro tree gone bare slots
  have sound : tree.Sound := sound_after edits
  have represents : slots.Represents tree := represents_after edits
  obtain ⟨kept, same⟩ := sound.foldl_ungroup order
  rw [same] at kept
  have follows := represents.foldl_apply sound (order.map Edit.ungroup)
  rw [List.foldl_map, List.foldl_map] at follows
  have whole : order.foldl (fun tree id => tree.apply (.ungroup id)) tree = bare := same
  rw [whole] at follows
  have contains := sound.contains_unwrap_iff gone
  refine ⟨same, represents.view_eq sound, follows.view_eq kept, contains,
    sound.isGroup_unwrap_iff gone, tree.clauses_unwrap gone, ?_⟩
  intro id stays
  refine ⟨sound.opens_children stays, fun item member => ?_⟩
  have up := kept.mem_children_iff_parent?.mp member
  exact ((contains item).mp (contains_iff.mpr (.inr (kept.mem_ids_of_parent? up)))).2

end Tree

end WhereEditor
