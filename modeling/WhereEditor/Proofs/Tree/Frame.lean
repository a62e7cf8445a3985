import WhereEditor.Proofs.Support
import WhereEditor.Proofs.Tree.Links

/-!
The brackets around each clause, computed downwards: those inside a group are those of its members,
with one more before the first clause and one more after the last. Main statement: in a tree with
distinct ids and no empty group these are the brackets that are counted upwards from each clause.
-/

namespace WhereEditor

structure Framed where
  opening : Nat
  entry : NodeId × Clause
  closing : Nat

namespace Framed

def enclose (clauses : List Framed) : List Framed :=
  (clauses.modifyHead fun framed => { framed with opening := framed.opening + 1 }).modifyLast
    fun framed => { framed with closing := framed.closing + 1 }

theorem enclose_ne_nil {clauses : List Framed} (inhabited : clauses ≠ []) :
    enclose clauses ≠ [] :=
  modifyLast_ne_nil (by simpa using inhabited) _

theorem map_entry_enclose (clauses : List Framed) :
    (enclose clauses).map Framed.entry = clauses.map Framed.entry := by
  have atHead : ∀ items : List Framed, (items.modifyHead fun framed =>
      { framed with opening := framed.opening + 1 }).map Framed.entry = items.map Framed.entry := by
    intro items
    cases items <;> rfl
  rw [enclose, ← atHead clauses]
  rcases List.eq_nil_or_concat (clauses.modifyHead fun framed =>
      { framed with opening := framed.opening + 1 }) with none_ | ⟨others, last, some_⟩
  · rw [none_]
    rfl
  · rw [some_, List.concat_eq_append, List.modifyLast_concat, List.map_append, List.map_append]
    rfl

def ofPlaces (places : List Place) (entry : NodeId × Clause) : Framed :=
  { opening := (places.dropLast.takeWhile Place.isFirst).length
    entry
    closing := (places.dropLast.takeWhile Place.isLast).length }

theorem enclose_map (entries : List (NodeId × Clause)) (distinct : entries.Nodup)
    (frame : NodeId × Clause → Framed) :
    enclose (entries.map frame) = entries.map fun entry =>
      { frame entry with
        opening := (frame entry).opening + if entries.head? = some entry then 1 else 0
        closing := (frame entry).closing + if entries.getLast? = some entry then 1 else 0 } := by
  rw [enclose, modifyHead_map entries distinct, modifyLast_map entries distinct]
  refine List.map_congr_left fun entry _ => ?_
  split <;> split <;> rfl

end Framed

namespace Forest

def framed : Forest → List Framed
  | nil => []
  | clause id body rest => ⟨0, (id, body), 0⟩ :: rest.framed
  | group _ members rest => Framed.enclose members.framed ++ rest.framed

/-! ## The clauses of a row -/

theorem map_fst_clauses_sublist (row : Forest) : (row.clauses.map Prod.fst).Sublist row.ids := by
  induction row with
  | nil => exact List.Sublist.refl _
  | clause id body rest ih => exact ih.cons_cons id
  | group id members rest inner ih =>
      rw [clauses, List.map_append]
      exact (inner.append ih).cons id

theorem mem_ids_of_mem_clauses {row : Forest} {entry : NodeId × Clause}
    (member : entry ∈ row.clauses) : entry.1 ∈ row.ids :=
  row.map_fst_clauses_sublist.subset (List.mem_map_of_mem member)

theorem nodup_clauses {row : Forest} (distinct : row.ids.Nodup) : row.clauses.Nodup :=
  (distinct.sublist row.map_fst_clauses_sublist).of_map Prod.fst

theorem clauses_ne_nil {row : Forest} (occupied : row.AtLeast 1) (inhabited : 1 ≤ row.width) :
    row.clauses ≠ [] := by
  induction row with
  | nil => exact absurd inhabited (by decide)
  | clause id body rest _ => exact List.cons_ne_nil _ _
  | group id members rest inner _ =>
      exact List.append_ne_nil_of_left_ne_nil (inner occupied.2.1 occupied.1) _

theorem map_entry_framed (row : Forest) : row.framed.map Framed.entry = row.clauses := by
  induction row with
  | nil => rfl
  | clause id body rest ih => rw [framed, clauses, List.map_cons, ih]
  | group id members rest inner ih =>
      rw [framed, clauses, List.map_append, Framed.map_entry_enclose, inner, ih]

theorem framed_ne_nil {row : Forest} (occupied : row.AtLeast 1) (inhabited : 1 ≤ row.width) :
    row.framed ≠ [] := by
  intro empty
  have entries := row.map_entry_framed
  rw [empty] at entries
  exact clauses_ne_nil occupied inhabited entries.symm

theorem eq_nil_or_clauses_ne_nil (row : Forest) (occupied : row.AtLeast 1) :
    row = nil ∨ 1 ≤ row.width ∧ row.clauses ≠ [] := by
  cases row with
  | nil => exact .inl rfl
  | clause id body rest => exact .inr ⟨Nat.succ_pos _, List.cons_ne_nil _ _⟩
  | group id members rest => exact .inr ⟨Nat.succ_pos _, clauses_ne_nil occupied (Nat.succ_pos _)⟩

theorem exists_places {row : Forest} {target : NodeId} (distinct : row.ids.Nodup)
    (member : target ∈ row.ids) (holder : NodeId) (count index : Nat) :
    ∃ places, row.placesFrom? target holder count index = some places ∧ places ≠ [] := by
  obtain ⟨parent, link⟩ := (mem_ids_iff_exists_link holder).mp member
  obtain ⟨place, beyond, found, _⟩ := exists_place_of_link distinct link count index
  exact ⟨place :: beyond, found, List.cons_ne_nil _ _⟩

/-! ## Clauses at the edges of their groups -/

/-- A clause stands first all the way out exactly if it is the first clause of a row. -/
theorem all_isFirst_iff {row : Forest} {entry : NodeId × Clause} {holder : NodeId}
    {count index : Nat} {places : List Place} (distinct : row.ids.Nodup)
    (occupied : row.AtLeast 1) (member : entry ∈ row.clauses)
    (found : row.placesFrom? entry.1 holder count index = some places) :
    places.all Place.isFirst = true ↔ index = 0 ∧ row.clauses.head? = some entry := by
  induction row generalizing holder count index places with
  | nil => exact absurd member List.not_mem_nil
  | clause id body rest ih =>
      obtain ⟨outside, restDistinct⟩ := List.nodup_cons.mp distinct
      rcases List.mem_cons.mp member with same | later
      · subst same
        rw [placesFrom?, if_pos rfl] at found
        cases found
        simp [Place.isFirst, clauses]
      · have further := mem_ids_of_mem_clauses later
        rw [placesFrom?_clause_of_mem distinct further] at found
        rw [ih restDistinct occupied later found]
        constructor
        · exact fun impossible => absurd impossible.1 (Nat.succ_ne_zero index)
        · intro first
          cases Option.some.inj first.2
          exact absurd further outside
  | group id members rest inner ih =>
      obtain ⟨_, _, membersDistinct, restDistinct, apart⟩ := nodup_ids_group distinct
      have inhabited : members.clauses ≠ [] := clauses_ne_nil occupied.2.1 occupied.1
      have head : (group id members rest).clauses.head? = members.clauses.head? :=
        List.head?_append_of_ne_nil _ inhabited
      rw [head]
      rcases List.mem_append.mp member with here | later
      · have deeper := mem_ids_of_mem_clauses here
        rw [placesFrom?_group_of_mem_members distinct deeper] at found
        obtain ⟨within, stands, rfl⟩ := Option.map_eq_some_iff.mp found
        have first := inner membersDistinct occupied.2.1 here stands
        rw [List.all_append, Bool.and_eq_true, first]
        simp [Place.isFirst, and_comm]
      · have further := mem_ids_of_mem_clauses later
        rw [placesFrom?_group_of_mem_rest distinct further] at found
        rw [ih restDistinct occupied.2.2 later found]
        constructor
        · exact fun impossible => absurd impossible.1 (Nat.succ_ne_zero index)
        · intro first
          have there := mem_ids_of_mem_clauses (List.mem_of_mem_head? first.2)
          exact absurd further (apart entry.1 there)

theorem all_isLast_iff {row : Forest} {entry : NodeId × Clause} {holder : NodeId}
    {count index : Nat} {places : List Place} (distinct : row.ids.Nodup)
    (occupied : row.AtLeast 1) (member : entry ∈ row.clauses) (ends : index + row.width = count)
    (found : row.placesFrom? entry.1 holder count index = some places) :
    places.all Place.isLast = true ↔ row.clauses.getLast? = some entry := by
  induction row generalizing holder count index places with
  | nil => exact absurd member List.not_mem_nil
  | clause id body rest ih =>
      obtain ⟨outside, restDistinct⟩ := List.nodup_cons.mp distinct
      rw [width_clause] at ends
      rcases List.mem_cons.mp member with same | later
      · subst same
        rw [placesFrom?, if_pos rfl] at found
        cases found
        rcases eq_nil_or_clauses_ne_nil rest occupied with rfl | ⟨wide, inhabited⟩
        · simp [Place.isLast, clauses, ← ends]
        · rw [clauses, List.getLast?_cons_of_ne_nil inhabited]
          constructor
          · intro last
            simp only [Place.isLast, List.all_cons, List.all_nil, Bool.and_true, beq_iff_eq] at last
            omega
          · intro last
            exact absurd (mem_ids_of_mem_clauses (List.mem_of_getLast? last)) outside
      · have further := mem_ids_of_mem_clauses later
        rw [placesFrom?_clause_of_mem distinct further] at found
        rw [clauses, List.getLast?_cons_of_ne_nil (List.ne_nil_of_mem later)]
        exact ih restDistinct occupied later (by omega) found
  | group id members rest inner ih =>
      obtain ⟨_, _, membersDistinct, restDistinct, apart⟩ := nodup_ids_group distinct
      rw [width_group] at ends
      rcases List.mem_append.mp member with here | later
      · have deeper := mem_ids_of_mem_clauses here
        rw [placesFrom?_group_of_mem_members distinct deeper] at found
        obtain ⟨within, stands, rfl⟩ := Option.map_eq_some_iff.mp found
        have last := inner membersDistinct occupied.2.1 here (Nat.zero_add _) stands
        rw [List.all_append, Bool.and_eq_true, last]
        rcases eq_nil_or_clauses_ne_nil rest occupied.2.2 with rfl | ⟨wide, inhabited⟩
        · simp [Place.isLast, clauses, ← ends]
        · rw [clauses, List.getLast?_append_of_ne_nil _ inhabited]
          constructor
          · rintro ⟨_, last⟩
            simp only [Place.isLast, List.all_cons, List.all_nil, Bool.and_true, beq_iff_eq] at last
            omega
          · intro last
            have there := mem_ids_of_mem_clauses (List.mem_of_getLast? last)
            exact absurd there (apart entry.1 deeper)
      · have further := mem_ids_of_mem_clauses later
        rw [placesFrom?_group_of_mem_rest distinct further] at found
        rw [clauses, List.getLast?_append_of_ne_nil _ (List.ne_nil_of_mem later)]
        exact ih restDistinct occupied.2.2 later (by omega) found

/-! ## Counting upwards and downwards -/

theorem ofPlaces_concat {members : Forest} {id : NodeId} {entry : NodeId × Clause}
    {within : List Place} (distinct : members.ids.Nodup) (occupied : members.AtLeast 1)
    (member : entry ∈ members.clauses)
    (found : members.placesFrom? entry.1 id members.width 0 = some within) (place : Place) :
    Framed.ofPlaces (within ++ [place]) entry =
      { opening := (Framed.ofPlaces within entry).opening +
          if members.clauses.head? = some entry then 1 else 0
        entry
        closing := (Framed.ofPlaces within entry).closing +
          if members.clauses.getLast? = some entry then 1 else 0 } := by
  obtain ⟨places, stands, inhabited⟩ :=
    exists_places distinct (mem_ids_of_mem_clauses member) id members.width 0
  cases Option.some.inj (found.symm.trans stands)
  have first := all_isFirst_iff distinct occupied member found
  have last := all_isLast_iff distinct occupied member (Nat.zero_add _) found
  simp only [true_and] at first
  simp only [Framed.ofPlaces, List.dropLast_concat, length_takeWhile_dropLast inhabited, first, last]

/-- The brackets counted upwards from each clause are those computed downwards. -/
theorem framed_eq_map_ofPlaces {row : Forest} (distinct : row.ids.Nodup)
    (occupied : row.AtLeast 1) (holder : NodeId) (count index : Nat) :
    row.framed = row.clauses.map fun entry =>
      Framed.ofPlaces ((row.placesFrom? entry.1 holder count index).getD []) entry := by
  induction row generalizing holder count index with
  | nil => rfl
  | clause id body rest ih =>
      have restDistinct := (List.nodup_cons.mp distinct).2
      rw [framed, clauses, List.map_cons, ih restDistinct occupied holder count (index + 1)]
      congr 1
      · rw [placesFrom?, if_pos rfl]
        rfl
      · refine List.map_congr_left fun entry later => ?_
        rw [placesFrom?_clause_of_mem distinct (mem_ids_of_mem_clauses later)]
  | group id members rest inner ih =>
      obtain ⟨_, _, membersDistinct, restDistinct, _⟩ := nodup_ids_group distinct
      rw [framed, clauses, List.map_append, inner membersDistinct occupied.2.1 id members.width 0,
        Framed.enclose_map _ (nodup_clauses membersDistinct),
        ih restDistinct occupied.2.2 holder count (index + 1)]
      congr 1
      · refine List.map_congr_left fun entry here => ?_
        have deeper := mem_ids_of_mem_clauses here
        obtain ⟨within, stands, _⟩ := exists_places membersDistinct deeper id members.width 0
        rw [placesFrom?_group_of_mem_members distinct deeper, stands, Option.map_some,
          Option.getD_some, Option.getD_some,
          ofPlaces_concat membersDistinct occupied.2.1 here stands]
        rfl
      · refine List.map_congr_left fun entry later => ?_
        rw [placesFrom?_group_of_mem_rest distinct (mem_ids_of_mem_clauses later)]

end Forest

namespace Tree

def frame (tree : Tree) (entry : NodeId × Clause) : Framed :=
  { opening := tree.opening entry.1, entry, closing := tree.closing entry.1 }

theorem Sound.framed_eq {tree : Tree} (sound : tree.Sound) :
    tree.row.framed = tree.clauses.map tree.frame :=
  Forest.framed_eq_map_ofPlaces sound.distinct sound.occupied NodeId.root tree.row.width 0

end Tree

end WhereEditor
