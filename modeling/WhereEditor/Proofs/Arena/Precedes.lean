import WhereEditor.Proofs.Arena.Basic

/-!
What becomes of the slots in the course of a run. Main statement: no edit fills a slot that has been
emptied or makes a group of a clause or a clause of a group, and new nodes get new slots.
-/

namespace WhereEditor.Arena

/-- Of the slots of an earlier arena a later one has those that are filled still, each with a node of
the same kind. -/
structure Precedes (earlier later : Arena) : Prop where
  next_le : earlier.next ≤ later.next
  kept : ∀ id < earlier.next, ∀ slot, later.slot? id = some slot →
    ∃ old, earlier.slot? id = some old ∧ old.items?.isSome = slot.items?.isSome

namespace Precedes

theorem refl (arena : Arena) : Precedes arena arena where
  next_le := Nat.le_refl _
  kept := fun _ _ slot filled => ⟨slot, filled, rfl⟩

theorem trans {first second third : Arena} (before : Precedes first second)
    (after : Precedes second third) : Precedes first third := by
  refine ⟨Nat.le_trans before.next_le after.next_le, ?_⟩
  intro id given slot filled
  obtain ⟨middle, between, same⟩ := after.kept id (Nat.lt_of_lt_of_le given before.next_le) slot filled
  obtain ⟨old, found, alike⟩ := before.kept id given middle between
  exact ⟨old, found, alike.trans same⟩

theorem foldl {α : Type} {step : Arena → α → Arena}
    (each : ∀ arena item, Precedes arena (step arena item)) (items : List α) (arena : Arena) :
    Precedes arena (items.foldl step arena) :=
  List.foldlRecOn items step (refl arena) fun _ kept item _ => kept.trans (each _ item)

/-! ## One slot at a time -/

variable (arena : Arena) (id : NodeId)

theorem modify {edit : Slot → Slot}
    (alike : ∀ slot, (edit slot).items?.isSome = slot.items?.isSome) :
    Precedes arena (arena.modify id edit) := by
  refine ⟨Nat.le_of_eq (next_modify arena id edit).symm, ?_⟩
  intro target _ slot filled
  rw [slot?_modify] at filled
  split at filled
  · rename_i same
    obtain ⟨old, found, rfl⟩ := Option.map_eq_some_iff.mp filled
    exact ⟨old, same ▸ found, (alike old).symm⟩
  · exact ⟨slot, filled, rfl⟩

theorem vacate : Precedes arena (arena.vacate id) := by
  refine ⟨Nat.le_of_eq (next_vacate arena id).symm, ?_⟩
  intro target _ slot filled
  rw [slot?_vacate] at filled
  split at filled
  · exact absurd filled (by simp)
  · exact ⟨slot, filled, rfl⟩

theorem push (slot : Slot) : Precedes arena (arena.push slot) := by
  refine ⟨by simp, ?_⟩
  intro target given held filled
  rw [slot?_push, if_neg (Nat.ne_of_lt given)] at filled
  exact ⟨held, filled, rfl⟩

theorem hang (parent : NodeId) : Precedes arena (arena.hang parent id) :=
  modify arena id fun _ => rfl

theorem editItems (edit : List NodeId → List NodeId) : Precedes arena (arena.editItems id edit) := by
  refine modify arena id fun slot => ?_
  cases held : slot.content <;> simp [Slot.editItems, Slot.items?, held]

theorem editClause (edit : Clause → Clause) : Precedes arena (arena.editClause id edit) := by
  refine modify arena id fun slot => ?_
  cases held : slot.content <;> simp [Slot.editClause, Slot.items?, held]

/-! ## The edits one by one -/

theorem insertAt (parent : NodeId) (index : Nat) (body : Clause) :
    Precedes arena (arena.insertAt parent index body) :=
  (push arena _).trans (editItems _ parent _)

theorem insertBefore (group : NodeId) (anchor : Option NodeId) (body : Clause) :
    Precedes arena (arena.insertBefore group anchor body) := by
  rw [Arena.insertBefore]
  split
  · exact insertAt arena _ _ body
  · exact insertAt arena _ _ body

theorem insertAfter (anchor : NodeId) (body : Clause) :
    Precedes arena (arena.insertAfter anchor body) := by
  rw [Arena.insertAfter]
  split
  · exact insertBefore arena _ _ body
  · exact insertBefore arena _ _ body

theorem dispose (depth : Nat) : Precedes arena (arena.dispose depth id) := by
  induction depth generalizing arena id with
  | zero => exact refl arena
  | succ depth ih =>
      rw [Arena.dispose]
      split
      · exact (vacate arena id).trans (foldl ih _ _)
      · exact refl arena

theorem dissolve (depth : Nat) : Precedes arena (arena.dissolve depth id) := by
  induction depth generalizing arena id with
  | zero => exact refl arena
  | succ depth ih =>
      rw [Arena.dissolve]
      split
      · exact refl arena
      · split
        · exact refl arena
        · split
          · exact ((vacate arena id).trans (hang _ _ _)).trans (editItems _ _ _)
          · exact ((vacate arena id).trans (editItems _ _ _)).trans (ih _ _)

theorem delete : Precedes arena (arena.delete id) := by
  rw [Arena.delete]
  split
  · exact refl arena
  · exact ((editItems arena _ _).trans (dispose _ id _)).trans (dissolve _ _ _)

theorem clear : Precedes arena arena.clear :=
  (editItems arena NodeId.root _).trans (foldl (fun arena id => dispose arena id _) _ _)

theorem unselect (depth : Nat) : Precedes arena (arena.unselect depth id) := by
  induction depth generalizing arena id with
  | zero => exact refl arena
  | succ depth ih =>
      refine foldl (fun arena item => ?_) _ arena
      split
      · exact ih arena item
      · exact editClause arena item _

theorem push_groupSelected {arena : Arena} {id : NodeId} (run : (arena.run? id).isSome = true) :
    Precedes (arena.push { parent := id, content := .group [] }) (arena.groupSelected id) := by
  obtain ⟨⟨start, count⟩, found⟩ := Option.isSome_iff_exists.mp run
  rw [Arena.groupSelected, found]
  refine Precedes.trans ?_ (unselect _ id _)
  refine Precedes.trans ?_ (editItems _ _ _)
  exact (editItems _ _ _).trans (foldl (fun arena item => hang arena item _) _ _)

theorem groupSelected : Precedes arena (arena.groupSelected id) := by
  cases run : arena.run? id with
  | none =>
      rw [Arena.groupSelected, run]
      exact refl arena
  | some found => exact (push arena _).trans (push_groupSelected (by rw [run]; rfl))

theorem ungroup : Precedes arena (arena.ungroup id) := by
  rw [Arena.ungroup]
  split
  · exact refl arena
  · refine Precedes.trans ?_ (editItems _ _ _)
    exact (vacate arena id).trans (foldl (fun arena item => hang arena item _) _ _)

theorem apply (edit : Tree.Edit) : Precedes arena (arena.apply edit) := by
  cases edit with
  | insertBefore group anchor body => exact insertBefore arena group anchor body
  | insertAfter anchor body => exact insertAfter arena anchor body
  | delete id => exact delete arena id
  | clear => exact clear arena
  | group holder => exact groupSelected arena holder
  | ungroup id => exact ungroup arena id
  | unselect group => exact unselect arena group _
  | change id edit => exact editClause arena id edit

end Precedes

theorem precedes_after (edits later : List Tree.Edit) :
    Precedes (after edits) (after (edits ++ later)) := by
  rw [after, after, List.foldl_append]
  exact Precedes.foldl Precedes.apply later (after edits)

end WhereEditor.Arena
