import WhereEditor.Proofs.Arena.Precedes
import WhereEditor.Proofs.Arena.Represents
import WhereEditor.Proofs.Tree.Fresh

/-!
What an id stands for in the course of a run. Main statements: a node that is gone does not come
back, a clause does not become a group nor a group a clause, and a new node has the next id.
-/

namespace WhereEditor

/-! ## The slot of a new node -/

namespace Arena

theorem clause?_insertAt (arena : Arena) (parent : NodeId) (index : Nat) (body : Clause) :
    (arena.insertAt parent index body).clause? arena.next = some body := by
  rw [clause?, insertAt, editItems, slot?_modify]
  split
  · rename_i same
    rw [← same, slot?_push, if_pos rfl]
    rfl
  · rw [slot?_push, if_pos rfl]
    rfl

theorem clause?_insertBefore (arena : Arena) (group : NodeId) (anchor : Option NodeId)
    (body : Clause) : (arena.insertBefore group anchor body).clause? arena.next = some body := by
  rw [insertBefore]
  split
  · exact clause?_insertAt arena _ _ body
  · exact clause?_insertAt arena _ _ body

theorem clause?_insertAfter (arena : Arena) (anchor : NodeId) (body : Clause) :
    (arena.insertAfter anchor body).clause? arena.next = some body := by
  rw [insertAfter]
  split
  · exact clause?_insertBefore arena _ _ body
  · exact clause?_insertBefore arena _ _ body

theorem isSome_clause?_of_slot? {arena : Arena} {id : NodeId} {slot : Slot}
    (filled : arena.slot? id = some slot) :
    (arena.clause? id).isSome = !slot.items?.isSome := by
  rw [clause?, filled, Option.bind_some, Slot.clause?, Slot.items?]
  cases slot.content <;> rfl

/-- The new group has its slot before its items move, and what happens after that leaves a group a
group. -/
theorem isGroup_groupSelected {arena : Arena} {group : NodeId}
    (run : (arena.run? group).isSome = true)
    (filled : (arena.groupSelected group).contains arena.next = true) :
    (arena.groupSelected group).isGroup arena.next = true := by
  obtain ⟨slot, found⟩ := Option.isSome_iff_exists.mp filled
  have onwards := Precedes.push_groupSelected run
  obtain ⟨old, pushed, same⟩ := onwards.kept arena.next (by simp) slot found
  rw [slot?_push, if_pos rfl] at pushed
  rw [isGroup_of_slot? found, ← same, ← Option.some.inj pushed]
  rfl

end Arena

namespace Tree

structure Precedes (earlier later : Tree) : Prop where
  next_le : earlier.next ≤ later.next
  /-- No node comes back. -/
  gone : ∀ id < earlier.next, earlier.contains id = false → later.contains id = false
  isGroup_eq : ∀ id < earlier.next, later.contains id = true →
    later.isGroup id = earlier.isGroup id
  isClause_eq : ∀ id < earlier.next, later.contains id = true →
    (later.clause? id).isSome = (earlier.clause? id).isSome

structure NumbersNext (tree : Tree) : Prop where
  insertBefore : ∀ group anchor body,
    tree.newcomers (tree.insertBefore group anchor body) = [tree.next] ∧
      (tree.insertBefore group anchor body).clause? tree.next = some body
  insertAfter : ∀ anchor body, tree.newcomers (tree.insertAfter anchor body) = [tree.next] ∧
    (tree.insertAfter anchor body).clause? tree.next = some body
  group : ∀ holder grouped, tree.groupSelected? holder = some grouped →
    tree.newcomers grouped = [tree.next] ∧ grouped.isGroup tree.next = true

end Tree

namespace Arena.Represents

variable {arena : Arena} {tree : Tree}

theorem precedes {later : Tree} {further : Arena} (represents : arena.Represents tree)
    (sound : tree.Sound) (onwards : further.Represents later) (laterSound : later.Sound)
    (precedes : arena.Precedes further) : tree.Precedes later where
  next_le := by
    rw [← represents.size, ← onwards.size]
    exact precedes.next_le
  gone := by
    intro id given absent
    rw [← represents.size] at given
    rw [← represents.contains_eq] at absent
    rw [← onwards.contains_eq, Bool.eq_false_iff]
    intro live
    obtain ⟨slot, filled⟩ := Option.isSome_iff_exists.mp live
    obtain ⟨old, found, _⟩ := precedes.kept id given slot filled
    rw [Arena.contains, found] at absent
    exact absurd absent (by simp)
  isGroup_eq := by
    intro id given live
    rw [← represents.size] at given
    rw [← onwards.contains_eq] at live
    obtain ⟨slot, filled⟩ := Option.isSome_iff_exists.mp live
    obtain ⟨old, found, same⟩ := precedes.kept id given slot filled
    rw [← onwards.isGroup_eq laterSound, ← represents.isGroup_eq sound, isGroup_of_slot? filled,
      isGroup_of_slot? found, same]
  isClause_eq := by
    intro id given live
    rw [← represents.size] at given
    rw [← onwards.contains_eq] at live
    obtain ⟨slot, filled⟩ := Option.isSome_iff_exists.mp live
    obtain ⟨old, found, same⟩ := precedes.kept id given slot filled
    rw [← onwards.clause?_eq laterSound, ← represents.clause?_eq sound,
      isSome_clause?_of_slot? filled, isSome_clause?_of_slot? found, same]

theorem numbersNext (represents : arena.Represents tree) (sound : tree.Sound) :
    tree.NumbersNext where
  insertBefore := by
    intro group anchor body
    have edited := represents.insertBefore sound group anchor body
    refine ⟨sound.newcomers_eq_singleton (sound.ids_insertBefore_perm group anchor body), ?_⟩
    rw [← edited.clause?_eq (sound.insertBefore group anchor body), ← represents.size]
    exact arena.clause?_insertBefore group anchor body
  insertAfter := by
    intro anchor body
    have edited := represents.insertAfter sound anchor body
    refine ⟨sound.newcomers_eq_singleton (sound.ids_insertAfter_perm anchor body), ?_⟩
    rw [← edited.clause?_eq (sound.insertAfter anchor body), ← represents.size]
    exact arena.clause?_insertAfter anchor body
  group := by
    intro holder grouped done
    have edited := represents.groupSelected sound holder
    rw [done, Option.getD_some] at edited
    have more := sound.ids_groupSelected?_perm done
    have live : grouped.contains tree.next = true :=
      Tree.contains_iff.mpr (.inr (more.symm.subset List.mem_cons_self))
    refine ⟨sound.newcomers_eq_singleton more, ?_⟩
    obtain ⟨_, run, _⟩ := Option.map_eq_some_iff.mp done
    rw [← edited.isGroup_eq (sound.groupSelected? (by decide) (.inr rfl) done), ← represents.size]
    refine isGroup_groupSelected ?_ ?_
    · rw [represents.run?_eq sound, run]
      rfl
    · rw [edited.contains_eq, represents.size]
      exact live

end Arena.Represents

namespace Tree

theorem represents_after (edits : List Edit) : (Arena.after edits).Represents (after edits) :=
  Arena.Represents.empty.foldl_apply Sound.empty edits

theorem precedes_after (edits further : List Edit) :
    (after edits).Precedes (after (edits ++ further)) :=
  (represents_after edits).precedes (sound_after edits) (represents_after (edits ++ further))
    (sound_after (edits ++ further)) (Arena.precedes_after edits further)

theorem Precedes.of_after {start : Tree} {edits : List Edit} (reached : start = after edits)
    (further : List Edit) : start.Precedes (further.foldl apply start) := by
  rw [reached, foldl_after]
  exact precedes_after edits further

theorem numbersNext_after (edits : List Edit) : (after edits).NumbersNext :=
  (represents_after edits).numbersNext (sound_after edits)

namespace Precedes

variable {earlier later : Tree}

theorem le_of_mem_newcomers (precedes : earlier.Precedes later) (sound : later.Sound) {id : NodeId}
    (member : id ∈ earlier.newcomers later) : earlier.next ≤ id := by
  obtain ⟨present, absent⟩ := mem_newcomers.mp member
  refine Nat.le_of_not_lt fun given => ?_
  have positive : id ≠ NodeId.root := fun same => sound.root_not_mem (same ▸ present)
  have missing : earlier.contains id = false := by
    rw [Bool.eq_false_iff, ne_eq, contains_iff]
    exact fun live => live.elim positive absent
  have still := precedes.gone id given missing
  rw [contains_iff.mpr (.inr present)] at still
  exact absurd still (by simp)

end Precedes

theorem eq_root_of_contains_after_clear {edits further : List Edit} {id : NodeId}
    (before : id < (after edits).next)
    (live : (after (edits ++ Edit.clear :: further)).contains id = true) : id = NodeId.root := by
  have onwards := precedes_after (edits ++ [Edit.clear]) further
  have emptied : (after edits).clear = after (edits ++ [Edit.clear]) := foldl_after edits [.clear]
  rw [List.append_assoc, List.singleton_append, ← emptied] at onwards
  by_contra inner
  have absent : (after edits).clear.contains id = false := by
    rw [Bool.eq_false_iff, ne_eq, contains_iff]
    exact fun there => there.elim inner List.not_mem_nil
  rw [onwards.gone id before absent] at live
  exact absurd live (by simp)

end Tree

end WhereEditor
