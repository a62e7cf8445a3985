import Mathlib.Data.Finset.Lattice.Lemmas
import WhereEditor.Proofs.Tree.Clauses

/-!
A tree without some of its clauses. Pruning takes them out all at once: a group stays if two of its
items or more still have a clause at or below them, and what is left of the items of any other group
stands in its place. Main statements: pruning twice is pruning once by both sets, and taking out one
clause, group by group from the inside out, is pruning by it alone.
-/

namespace WhereEditor

namespace Forest

/-- The number of items in the row that are or contain a clause outside `gone`. -/
def remaining (gone : Finset NodeId) : Forest → Nat
  | nil => 0
  | clause id _ rest => (if id ∈ gone then 0 else 1) + rest.remaining gone
  | group _ members rest =>
      (if ∃ entry ∈ members.clauses, entry.1 ∉ gone then 1 else 0) + rest.remaining gone

def prune (gone : Finset NodeId) : Forest → Forest
  | nil => nil
  | clause id body rest =>
      if id ∈ gone then rest.prune gone else clause id body (rest.prune gone)
  | group id members rest =>
      if 2 ≤ members.remaining gone then group id (members.prune gone) (rest.prune gone)
      else members.prune gone ++ rest.prune gone

/-! ## What is left of a row -/

theorem clauses_prune (gone : Finset NodeId) (row : Forest) :
    (row.prune gone).clauses = row.clauses.filter (·.1 ∉ gone) := by
  induction row with
  | nil => rfl
  | clause id body rest ih =>
      simp only [prune, clauses]
      split
      · rename_i taken
        simp [ih, taken]
      · rename_i kept
        simp [clauses, ih, kept]
  | group id members rest inner ih =>
      simp only [prune, clauses, List.filter_append, ← inner, ← ih]
      split
      · rfl
      · rw [clauses_append]

theorem ids_prune_sublist (gone : Finset NodeId) (row : Forest) :
    (row.prune gone).ids.Sublist row.ids := by
  induction row with
  | nil => exact List.Sublist.refl _
  | clause id body rest ih =>
      simp only [prune]
      split
      · exact ih.cons id
      · exact ih.cons_cons id
  | group id members rest inner ih =>
      simp only [prune]
      split
      · exact (inner.append ih).cons_cons id
      · rw [ids_append]
        exact (inner.append ih).cons id

theorem remaining_pos_iff (gone : Finset NodeId) (row : Forest) :
    0 < row.remaining gone ↔ ∃ entry ∈ row.clauses, entry.1 ∉ gone := by
  induction row with
  | nil => simp [remaining, clauses]
  | clause id body rest ih =>
      simp only [remaining, clauses, List.mem_cons, exists_eq_or_imp, ← ih]
      split
      · rename_i taken
        simp [taken]
      · rename_i kept
        simp only [kept, not_false_eq_true, true_or, iff_true]
        omega
  | group id members rest inner ih =>
      simp only [remaining, clauses, List.mem_append, or_and_right, exists_or, ← inner, ← ih]
      split
      · omega
      · omega

theorem width_prune (gone : Finset NodeId) (row : Forest) :
    (row.prune gone).width = row.remaining gone := by
  induction row with
  | nil => rfl
  | clause id body rest ih =>
      simp only [prune, remaining]
      split
      · rw [ih, Nat.zero_add]
      · rw [width_clause, ih, Nat.add_comm]
  | group id members rest inner ih =>
      simp only [prune, remaining, ← remaining_pos_iff]
      split
      · rw [width_group, ih]
        split
        · omega
        · omega
      · rw [width_append, inner, ih]
        split
        · omega
        · omega

theorem remaining_le_width (gone : Finset NodeId) (row : Forest) :
    row.remaining gone ≤ row.width := by
  induction row with
  | nil => exact Nat.le_refl _
  | clause id body rest ih =>
      simp only [remaining, width_clause]
      split
      · omega
      · omega
  | group id members rest _ ih =>
      simp only [remaining, width_group]
      split
      · omega
      · omega

theorem atLeast_prune (gone : Finset NodeId) (row : Forest) : (row.prune gone).AtLeast 2 := by
  induction row with
  | nil => trivial
  | clause id body rest ih =>
      simp only [prune]
      split
      · exact ih
      · exact ih
  | group id members rest inner ih =>
      simp only [prune]
      split
      · rename_i many
        exact ⟨by rwa [width_prune], inner, ih⟩
      · exact (atLeast_append _ _).mpr ⟨inner, ih⟩

theorem prune_append (gone : Finset NodeId) (row tail : Forest) :
    (row ++ tail).prune gone = row.prune gone ++ tail.prune gone := by
  induction row with
  | nil => rfl
  | clause id body rest ih =>
      simp only [clause_append, prune, ih]
      split
      · rfl
      · rfl
  | group id members rest _ ih =>
      simp only [group_append, prune, ih]
      split
      · rfl
      · rw [append_assoc]

theorem prune_prune (first second : Finset NodeId) (row : Forest) :
    (row.prune first).prune second = row.prune (first ∪ second) := by
  induction row with
  | nil => rfl
  | clause id body rest ih =>
      by_cases early : id ∈ first
      · simp [prune, early, ih]
      · by_cases late : id ∈ second
        · simp [prune, early, late, ih]
        · simp [prune, early, late, ih]
  | group id members rest inner ih =>
      have both : (members.prune first).remaining second = members.remaining (first ∪ second) := by
        rw [← width_prune, inner, width_prune]
      by_cases stays : 2 ≤ members.remaining first
      · simp only [prune, stays, if_true, both, inner, ih]
      · -- What is gone after the first round alone has not come back after both.
        have fewer : ¬ 2 ≤ members.remaining (first ∪ second) := by
          have bound := remaining_le_width second (members.prune first)
          rw [width_prune, both] at bound
          omega
        simp only [prune, stays, fewer, if_false, prune_append, inner, ih]

/-! ## One clause -/

theorem remaining_eq_width {gone : Finset NodeId} {row : Forest} (occupied : row.AtLeast 1)
    (apart : ∀ entry ∈ row.clauses, entry.1 ∉ gone) : row.remaining gone = row.width := by
  induction row with
  | nil => rfl
  | clause id body rest ih =>
      obtain ⟨here, later⟩ := List.forall_mem_cons.mp apart
      rw [remaining, if_neg here, ih occupied later, width_clause, Nat.add_comm]
  | group id members rest _ ih =>
      obtain ⟨wide, membersOccupied, restOccupied⟩ := occupied
      obtain ⟨inside, later⟩ := List.forall_mem_append.mp apart
      have left : ∃ entry ∈ members.clauses, entry.1 ∉ gone := by
        obtain ⟨entry, member⟩ := List.exists_mem_of_ne_nil _ (clauses_ne_nil membersOccupied wide)
        exact ⟨entry, member, inside entry member⟩
      rw [remaining, if_pos left, ih restOccupied later, width_group, Nat.add_comm]

theorem prune_eq_self {gone : Finset NodeId} {row : Forest} (occupied : row.AtLeast 2)
    (apart : ∀ entry ∈ row.clauses, entry.1 ∉ gone) : row.prune gone = row := by
  induction row with
  | nil => rfl
  | clause id body rest ih =>
      obtain ⟨here, later⟩ := List.forall_mem_cons.mp apart
      rw [prune, if_neg here, ih occupied later]
  | group id members rest inner ih =>
      obtain ⟨wide, membersOccupied, restOccupied⟩ := occupied
      obtain ⟨inside, later⟩ := List.forall_mem_append.mp apart
      have many : 2 ≤ members.remaining gone := by
        rwa [remaining_eq_width (membersOccupied.mono (by decide)) inside]
      rw [prune, if_pos many, inner membersOccupied inside, ih restOccupied later]

/-- The groups that the deletion of a clause dissolves, one after the other, are those that pruning
dissolves; this needs two items in every group, for a group of one that loses nothing stays. -/
theorem erase_eq_prune {row : Forest} {target : NodeId} (occupied : row.AtLeast 2)
    (distinct : row.ids.Nodup) (noGroup : row.members? target = none) :
    row.erase target = row.prune {target} := by
  induction row with
  | nil => rfl
  | clause id body rest ih =>
      obtain ⟨outside, restDistinct⟩ := List.nodup_cons.mp distinct
      have restOccupied : rest.AtLeast 2 := occupied
      by_cases same : id = target
      · subst same
        have apart : ∀ entry ∈ rest.clauses, entry.1 ∉ ({id} : Finset NodeId) := by
          intro entry member taken
          have again := mem_ids_of_mem_clauses member
          rw [Finset.mem_singleton.mp taken] at again
          exact outside again
        rw [erase, if_pos rfl, prune, if_pos (Finset.mem_singleton_self id),
          prune_eq_self restOccupied apart]
      · have kept : id ∉ ({target} : Finset NodeId) := by simpa using same
        rw [erase, if_neg same, prune, if_neg kept, ih restOccupied restDistinct noGroup]
  | group id members rest inner ih =>
      obtain ⟨wide, membersOccupied, restOccupied⟩ := occupied
      obtain ⟨_, _, membersDistinct, restDistinct, _⟩ := nodup_ids_group distinct
      rw [members?_group] at noGroup
      split at noGroup
      · exact absurd noGroup (by simp)
      · rename_i other
        obtain ⟨notInside, notLater⟩ := Option.or_eq_none_iff.mp noGroup
        simp only [erase, if_neg other, inner membersOccupied membersDistinct notInside,
          ih restOccupied restDistinct notLater, settle_eq, width_prune, prune]
        split
        · split
          · rw [if_neg (by omega)]
          · rw [if_pos (by omega)]
        · rw [if_pos (by omega)]

/-- A group stays under its own id, or does not stay at all. -/
theorem members?_prune {row : Forest} (gone : Finset NodeId) (target : NodeId)
    (distinct : row.ids.Nodup) :
    (row.prune gone).members? target = (row.members? target).bind fun members =>
      if 2 ≤ members.remaining gone then some (members.prune gone) else none := by
  induction row with
  | nil => rfl
  | clause id body rest ih =>
      have later := ih (List.nodup_cons.mp distinct).2
      simp only [prune]
      split
      · exact later
      · exact later
  | group id members rest inner ih =>
      obtain ⟨inside, outside, membersDistinct, restDistinct, apart⟩ := nodup_ids_group distinct
      have here := inner membersDistinct
      have later := ih restDistinct
      by_cases same : id = target
      · subst same
        have noneHere : (members.prune gone).members? id = none :=
          members?_eq_none fun there => inside ((ids_prune_sublist gone members).subset there)
        have noneLater : (rest.prune gone).members? id = none :=
          members?_eq_none fun there => outside ((ids_prune_sublist gone rest).subset there)
        rw [members?_group, if_pos rfl, Option.bind_some, prune]
        split
        · rw [members?_group, if_pos rfl]
        · rw [members?_append, noneHere, noneLater]
          rfl
      · have both : ((members.prune gone).members? target).or ((rest.prune gone).members? target) =
            ((members.members? target).or (rest.members? target)).bind fun members =>
              if 2 ≤ members.remaining gone then some (members.prune gone) else none := by
          rw [here, later]
          cases found : members.members? target with
          | none => rfl
          | some below =>
              have absent : rest.members? target = none :=
                members?_eq_none (apart target (mem_ids_of_members? found))
              simp [absent]
        rw [members?_group, if_neg same, ← both, prune]
        split
        · rw [members?_group, if_neg same]
        · rw [members?_append]

end Forest

namespace Tree

def prune (tree : Tree) (gone : Finset NodeId) : Tree := { tree with row := tree.row.prune gone }

theorem prune_prune (tree : Tree) (first second : Finset NodeId) :
    (tree.prune first).prune second = tree.prune (first ∪ second) :=
  congrArg (fun row => { tree with row }) (tree.row.prune_prune first second)

theorem Sound.prune {tree : Tree} (sound : tree.Sound 2) (gone : Finset NodeId) :
    (tree.prune gone).Sound 2 :=
  sound.of_sublist (tree.row.ids_prune_sublist gone) (tree.row.atLeast_prune gone)

theorem Sound.row?_prune {tree : Tree} {least : Nat} (sound : tree.Sound least)
    (gone : Finset NodeId) (id : NodeId) :
    (tree.prune gone).row? id = (tree.row? id).bind fun row =>
      if id = NodeId.root ∨ 2 ≤ row.remaining gone then some (row.prune gone) else none := by
  by_cases outer : id = NodeId.root
  · subst outer
    simp [row?, Tree.prune]
  · simp only [row?, outer, if_false, false_or]
    exact Forest.members?_prune gone id sound.distinct

end Tree

end WhereEditor
