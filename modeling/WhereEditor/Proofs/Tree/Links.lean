import Mathlib.Data.List.Nodup
import WhereEditor.Proofs.Support
import WhereEditor.Proofs.Tree.Sound

/-!
The two views of the shape of a tree, upwards from a node to its parent and downwards from a group
to its items, and that they agree. Both are read off one table, which has a line for every node with
the group that holds it. Main statement: in a sound tree every node but the root stands once in the
row of the one group that it names as its parent, the root is reached from every node, every node is
reached from the root, and no group but the root is empty.
-/

namespace WhereEditor

open Relation

namespace Forest

def links (holder : NodeId) : Forest → List (NodeId × NodeId)
  | nil => []
  | clause id _ rest => (id, holder) :: rest.links holder
  | group id members rest => (id, holder) :: (members.links id ++ rest.links holder)

theorem map_fst_links (row : Forest) (holder : NodeId) :
    (row.links holder).map Prod.fst = row.ids := by
  induction row generalizing holder with
  | nil => rfl
  | clause id body rest ih => simp [links, ids, ih]
  | group id members rest inner ih => simp [links, ids, inner, ih]

theorem mem_ids_iff_exists_link {row : Forest} {id : NodeId} (holder : NodeId) :
    id ∈ row.ids ↔ ∃ parent, (id, parent) ∈ row.links holder := by
  rw [← map_fst_links row holder]
  simp

/-! ## The way down -/

theorem mem_links_iff {row : Forest} {id parent : NodeId} (holder : NodeId)
    (distinct : row.ids.Nodup) :
    (id, parent) ∈ row.links holder ↔
      parent = holder ∧ id ∈ row.heads ∨
        ∃ members, row.members? parent = some members ∧ id ∈ members.heads := by
  induction row generalizing holder with
  | nil => simp [links, heads, members?]
  | clause head body rest ih =>
      have later := ih holder (List.nodup_cons.mp distinct).2
      simp only [links, heads, members?, List.mem_cons, Prod.mk.injEq, later]
      rw [and_or_left, or_assoc, and_comm (a := id = head)]
  | group head members rest inner ih =>
      obtain ⟨_, _, membersDistinct, restDistinct, _⟩ := nodup_ids_group distinct
      have here := inner head membersDistinct
      have later := ih holder restDistinct
      simp only [links, List.mem_cons, List.mem_append, Prod.mk.injEq, here, later,
        members?_group_eq_some_iff distinct]
      constructor
      · rintro (⟨rfl, rfl⟩ | (⟨rfl, below⟩ | ⟨row, found, below⟩) | ⟨rfl, below⟩ |
          ⟨row, found, below⟩)
        · exact .inl ⟨rfl, List.mem_cons_self⟩
        · exact .inr ⟨members, .inl ⟨rfl, rfl⟩, below⟩
        · exact .inr ⟨row, .inr (.inl found), below⟩
        · exact .inl ⟨rfl, List.mem_cons_of_mem _ below⟩
        · exact .inr ⟨row, .inr (.inr found), below⟩
      · rintro (⟨rfl, item⟩ | ⟨row, ⟨rfl, rfl⟩ | found | found, below⟩)
        · rcases List.mem_cons.mp item with same | further
          · exact .inl ⟨same, rfl⟩
          · exact .inr (.inr (.inl ⟨rfl, further⟩))
        · exact .inr (.inl (.inl ⟨rfl, below⟩))
        · exact .inr (.inl (.inr ⟨row, found, below⟩))
        · exact .inr (.inr (.inr ⟨row, found, below⟩))

/-! ## The way up -/

theorem placesFrom?_eq_none {row : Forest} {target : NodeId} (absent : target ∉ row.ids)
    (holder : NodeId) (count index : Nat) : row.placesFrom? target holder count index = none := by
  induction row generalizing holder count index with
  | nil => rfl
  | clause id body rest ih =>
      simp only [ids, List.mem_cons, not_or] at absent
      rw [placesFrom?, if_neg (Ne.symm absent.1), ih absent.2]
  | group id members rest inner ih =>
      simp only [ids, List.mem_cons, List.mem_append, not_or] at absent
      rw [placesFrom?, if_neg (Ne.symm absent.1), inner absent.2.1]
      exact ih absent.2.2 holder count (index + 1)

theorem placesFrom?_clause_of_mem {id target : NodeId} {body : Clause} {rest : Forest}
    (distinct : (clause id body rest).ids.Nodup) (member : target ∈ rest.ids) (holder : NodeId)
    (count index : Nat) :
    (clause id body rest).placesFrom? target holder count index =
      rest.placesFrom? target holder count (index + 1) := by
  have other : id ≠ target := fun same => (List.nodup_cons.mp distinct).1 (same ▸ member)
  rw [placesFrom?, if_neg other]

theorem placesFrom?_group_of_mem_rest {id target : NodeId} {members rest : Forest}
    (distinct : (group id members rest).ids.Nodup) (member : target ∈ rest.ids) (holder : NodeId)
    (count index : Nat) :
    (group id members rest).placesFrom? target holder count index =
      rest.placesFrom? target holder count (index + 1) := by
  obtain ⟨_, outside, _, _, apart⟩ := nodup_ids_group distinct
  have other : id ≠ target := fun same => outside (same ▸ member)
  have absent : target ∉ members.ids := fun there => apart target there member
  rw [placesFrom?, if_neg other, placesFrom?_eq_none absent]

theorem placesFrom?_group_of_mem_members {id target : NodeId} {members rest : Forest}
    (distinct : (group id members rest).ids.Nodup) (member : target ∈ members.ids)
    (holder : NodeId) (count index : Nat) :
    (group id members rest).placesFrom? target holder count index =
      (members.placesFrom? target id members.width 0).map (· ++ [⟨holder, index, count⟩]) := by
  obtain ⟨inside, _, _, _, apart⟩ := nodup_ids_group distinct
  have other : id ≠ target := fun same => inside (same ▸ member)
  rw [placesFrom?, if_neg other, placesFrom?_eq_none (apart target member)]
  cases members.placesFrom? target id members.width 0 <;> rfl

theorem exists_place_of_link {row : Forest} {target holder parent : NodeId}
    (distinct : row.ids.Nodup) (link : (target, parent) ∈ row.links holder) (count index : Nat) :
    ∃ place beyond, row.placesFrom? target holder count index = some (place :: beyond) ∧
      place.holder = parent := by
  induction row generalizing holder count index with
  | nil => exact absurd link List.not_mem_nil
  | clause id body rest ih =>
      rcases List.mem_cons.mp link with same | later
      · cases same
        exact ⟨⟨parent, index, count⟩, [], by rw [placesFrom?, if_pos rfl], rfl⟩
      · have member := (mem_ids_iff_exists_link _).mpr ⟨parent, later⟩
        rw [placesFrom?_clause_of_mem distinct member]
        exact ih (List.nodup_cons.mp distinct).2 later count (index + 1)
  | group id members rest inner ih =>
      obtain ⟨_, _, membersDistinct, restDistinct, _⟩ := nodup_ids_group distinct
      rcases List.mem_cons.mp link with same | deeper
      · cases same
        exact ⟨⟨parent, index, count⟩, [], by rw [placesFrom?, if_pos rfl], rfl⟩
      · rcases List.mem_append.mp deeper with here | later
        · have member := (mem_ids_iff_exists_link _).mpr ⟨parent, here⟩
          obtain ⟨place, beyond, found, holds⟩ := inner membersDistinct here members.width 0
          rw [placesFrom?_group_of_mem_members distinct member, found]
          exact ⟨place, beyond ++ [⟨holder, index, count⟩], rfl, holds⟩
        · have member := (mem_ids_iff_exists_link _).mpr ⟨parent, later⟩
          rw [placesFrom?_group_of_mem_rest distinct member]
          exact ih restDistinct later count (index + 1)

theorem transGen_links {row : Forest} {id : NodeId} (holder : NodeId) (member : id ∈ row.ids) :
    TransGen (fun node parent => (node, parent) ∈ row.links holder) id holder := by
  induction row generalizing holder with
  | nil => exact absurd member List.not_mem_nil
  | clause head body rest ih =>
      rcases List.mem_cons.mp member with same | later
      · subst same
        exact TransGen.single List.mem_cons_self
      · exact TransGen.mono (fun _ _ link => List.mem_cons_of_mem _ link) _ _ (ih holder later)
  | group head members rest inner ih =>
      have top : TransGen (fun node parent => (node, parent) ∈ (group head members rest).links holder)
          head holder := TransGen.single List.mem_cons_self
      rcases List.mem_cons.mp member with same | deeper
      · exact same ▸ top
      · rcases List.mem_append.mp deeper with here | later
        · have climb := TransGen.mono (fun _ _ link =>
            List.mem_cons_of_mem (head, holder) (List.mem_append_left (rest.links holder) link))
            _ _ (inner head here)
          exact climb.trans top
        · exact TransGen.mono (fun _ _ link =>
            List.mem_cons_of_mem _ (List.mem_append_right _ link)) _ _ (ih holder later)

end Forest

namespace Tree

variable {tree : Tree} {id group parent : NodeId}

theorem contains_iff : tree.contains id = true ↔ id = NodeId.root ∨ id ∈ tree.row.ids := by
  simp [contains]

theorem row?_root (tree : Tree) : tree.row? NodeId.root = some tree.row := if_pos rfl

theorem row?_of_ne (inner : group ≠ NodeId.root) : tree.row? group = tree.row.members? group :=
  if_neg inner

theorem contains_of_isGroup (isGroup : tree.isGroup group = true) : tree.contains group = true := by
  obtain ⟨row, found⟩ := Option.isSome_iff_exists.mp isGroup
  rw [contains_iff]
  by_cases outer : group = NodeId.root
  · exact .inl outer
  · rw [row?_of_ne outer] at found
    exact .inr (Forest.mem_ids_of_members? found)

theorem isGroup_of_mem_children (member : id ∈ tree.children group) :
    tree.isGroup group = true := by
  rw [children] at member
  rw [isGroup]
  cases found : tree.row? group with
  | none => simp [found, Forest.heads] at member
  | some row => rfl

namespace Sound

theorem mem_links_iff_mem_children (sound : tree.Sound) :
    (id, group) ∈ tree.row.links NodeId.root ↔ id ∈ tree.children group := by
  rw [Forest.mem_links_iff NodeId.root sound.distinct, children]
  by_cases outer : group = NodeId.root
  · subst outer
    simp [row?_root, Forest.members?_eq_none sound.root_not_mem]
  · rw [row?_of_ne outer]
    cases tree.row.members? group <;> simp [outer, Forest.heads]

theorem mem_links_iff_parent? (sound : tree.Sound) :
    (id, parent) ∈ tree.row.links NodeId.root ↔ tree.parent? id = some parent := by
  have named : ∀ holder, (id, holder) ∈ tree.row.links NodeId.root →
      tree.parent? id = some holder := by
    intro holder link
    obtain ⟨place, beyond, found, holds⟩ :=
      Forest.exists_place_of_link sound.distinct link tree.row.width 0
    simp [Tree.parent?, Tree.places, Forest.places, found, holds]
  constructor
  · exact named parent
  · intro up
    by_cases member : id ∈ tree.row.ids
    · obtain ⟨holder, link⟩ := (Forest.mem_ids_iff_exists_link NodeId.root).mp member
      rw [named holder link] at up
      exact Option.some.inj up ▸ link
    · rw [Tree.parent?, Tree.places, Forest.places, Forest.placesFrom?_eq_none member] at up
      exact absurd up (by simp)

theorem mem_children_iff_parent? (sound : tree.Sound) :
    id ∈ tree.children group ↔ tree.parent? id = some group := by
  rw [← sound.mem_links_iff_mem_children, sound.mem_links_iff_parent?]

theorem exists_parent (sound : tree.Sound) (member : id ∈ tree.row.ids) :
    ∃ parent, tree.parent? id = some parent := by
  obtain ⟨parent, link⟩ := (Forest.mem_ids_iff_exists_link NodeId.root).mp member
  exact ⟨parent, sound.mem_links_iff_parent?.mp link⟩

theorem mem_ids_of_parent? (sound : tree.Sound) (up : tree.parent? id = some parent) :
    id ∈ tree.row.ids :=
  (Forest.mem_ids_iff_exists_link NodeId.root).mpr ⟨parent, sound.mem_links_iff_parent?.mpr up⟩

theorem parent?_eq_none (sound : tree.Sound) (absent : id ∉ tree.row.ids) :
    tree.parent? id = none :=
  Option.eq_none_iff_forall_ne_some.mpr fun _ up => absent (sound.mem_ids_of_parent? up)

theorem parent?_root (sound : tree.Sound) : tree.parent? NodeId.root = none :=
  sound.parent?_eq_none sound.root_not_mem

theorem nodup_children (sound : tree.Sound) (group : NodeId) : (tree.children group).Nodup := by
  rw [children]
  cases found : tree.row? group with
  | none => exact List.nodup_nil
  | some row =>
      obtain ⟨before, beyond, whole, _⟩ := sound.exists_ids_updateRow found
      have distinct := sound.distinct
      rw [whole] at distinct
      have inner := (List.nodup_append.mp (List.nodup_append.mp distinct).2.1).1
      exact inner.sublist row.heads_sublist_ids

theorem children_ne_nil (sound : tree.Sound) (inner : group ≠ NodeId.root)
    (isGroup : tree.isGroup group = true) : tree.children group ≠ [] :=
  List.ne_nil_of_length_pos (sound.le_length_children inner isGroup)

theorem reflTransGen_parent? (sound : tree.Sound) (live : tree.contains id = true) :
    ReflTransGen (fun node parent => tree.parent? node = some parent) id NodeId.root := by
  rcases contains_iff.mp live with rfl | member
  · exact ReflTransGen.refl
  · have climb := (Forest.transGen_links NodeId.root member).to_reflTransGen
    exact ReflTransGen.mono (fun _ _ => sound.mem_links_iff_parent?.mp) _ _ climb

end Sound

end Tree

structure View where
  contains : NodeId → Bool
  isGroup : NodeId → Bool
  parent? : NodeId → Option NodeId
  children : NodeId → List NodeId
  clause? : NodeId → Option Clause

structure View.Linked (view : View) : Prop where
  rootLive : view.contains NodeId.root = true
  rootGroup : view.isGroup NodeId.root = true
  rootTop : view.parent? NodeId.root = none
  held : ∀ id, view.contains id = true → id ≠ NodeId.root →
    ∃ parent, view.parent? id = some parent ∧ view.contains parent = true ∧
      view.isGroup parent = true ∧ (view.children parent).count id = 1 ∧
      ∀ other, other ≠ parent → id ∉ view.children other
  holds : ∀ group, view.contains group = true → view.isGroup group = true →
    ∀ id ∈ view.children group, view.contains id = true ∧ view.parent? id = some group
  reachesRoot : ∀ id, view.contains id = true →
    ReflTransGen (fun node parent => view.parent? node = some parent) id NodeId.root
  acyclic : ∀ id, ¬ TransGen (fun node parent => view.parent? node = some parent) id id
  reachedFromRoot : ∀ id, view.contains id = true →
    ReflTransGen (fun group item => item ∈ view.children group) NodeId.root id
  occupied : ∀ group, view.contains group = true → group ≠ NodeId.root →
    view.isGroup group = true → view.children group ≠ []

namespace Tree

def view (tree : Tree) : View where
  contains := tree.contains
  isGroup := tree.isGroup
  parent? := tree.parent?
  children := tree.children
  clause? := tree.clause?

theorem Sound.linked {tree : Tree} (sound : tree.Sound) : tree.view.Linked where
  rootLive := rfl
  rootGroup := rfl
  rootTop := sound.parent?_root
  held := by
    intro id live inner
    obtain ⟨parent, up⟩ := sound.exists_parent ((contains_iff.mp live).resolve_left inner)
    have item := sound.mem_children_iff_parent?.mpr up
    have isGroup := isGroup_of_mem_children item
    refine ⟨parent, up, contains_of_isGroup isGroup, isGroup, ?_, ?_⟩
    · exact List.count_eq_one_of_mem (sound.nodup_children parent) item
    · intro other different there
      have named := sound.mem_children_iff_parent?.mp there
      rw [up] at named
      exact different (Option.some.inj named).symm
  holds := by
    intro group _ _ id item
    have up := sound.mem_children_iff_parent?.mp item
    exact ⟨contains_iff.mpr (.inr (sound.mem_ids_of_parent? up)), up⟩
  reachesRoot := fun _ live => sound.reflTransGen_parent? live
  acyclic := by
    intro id cycle
    obtain ⟨parent, up, _⟩ := TransGen.head'_iff.mp cycle
    have live := contains_iff.mpr (.inr (sound.mem_ids_of_parent? up))
    refine not_transGen_self ?_ ?_ (sound.reflTransGen_parent? live) cycle
    · exact fun one other => Option.some.inj (one.symm.trans other)
    · intro node above
      rw [sound.parent?_root] at above
      exact absurd above (by simp)
  reachedFromRoot := by
    intro id live
    have climb := sound.reflTransGen_parent? live
    rw [← reflTransGen_swap] at climb
    exact ReflTransGen.mono (fun _ _ => sound.mem_children_iff_parent?.mpr) _ _ climb
  occupied := fun _ _ inner isGroup => sound.children_ne_nil inner isGroup

end Tree

end WhereEditor
