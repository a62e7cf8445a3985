import WhereEditor.Proofs.Draft.Compile
import WhereEditor.Proofs.Draft.Writes
import WhereEditor.Proofs.Query.Pieces

/-!
Queries of a column store, which knows no `or`. Main statement: after any run on a draft for a column
store, whatever combinators were asked for, each of its rows but the first is joined by `and`, and so
are the comparisons of its query in every dialect.
-/

namespace WhereEditor

/-! ## The combinator of a clause -/

namespace Clause

@[simp] theorem combinator_setField (clause : Clause) (api : Api) (schema : Schema)
    (field : String) : (clause.setField api schema field).combinator = clause.combinator := by
  unfold setField
  split
  · rfl
  · split <;> rfl

@[simp] theorem combinator_setType (clause : Clause) (type : DataType) :
    (clause.setType type).combinator = clause.combinator := by
  unfold setType
  split <;> rfl

theorem combinator_of_setValue? {clause changed : Clause} {value : Value}
    (accepted : clause.setValue? value = some changed) :
    changed.combinator = clause.combinator := by
  rw [setValue?] at accepted
  split at accepted
  · cases accepted
    rfl
  · exact absurd accepted (by simp)

theorem joiner_false_of_ne_or {clause : Clause} (plain : clause.combinator ≠ .or) :
    clause.joiner false = .and := by
  cases chosen : clause.combinator with
  | none => simp [joiner, chosen]
  | and => simp [joiner, chosen]
  | or => exact absurd chosen plain

end Clause

/-! ## Combinators along a run -/

theorem Draft.Writes.combinator_ne_or {draft : Draft} {action : Action} {clause : Clause}
    (columnStore : draft.api = .cassandra)
    (all : ∀ entry ∈ draft.tree.clauses, entry.2.combinator ≠ .or)
    (written : draft.Writes action clause) : clause.combinator ≠ .or := by
  cases written with
  | blank | restart | partitionKey | rowKey | upper => exact Combinator.noConfusion
  | named => simp [Clause.blank]
  | field held => simpa using all _ held
  | type held => simpa using all _ held
  | operator held => exact all _ held
  | value held accepted => exact Clause.combinator_of_setValue? accepted ▸ all _ held
  | combinator held =>
      -- The one place where a combinator is chosen takes `and` for `or`.
      split
      · exact Combinator.noConfusion
      · rename_i other
        exact fun chosen => other ⟨columnStore, chosen⟩
  | mark held => exact all _ held
  | unmark held => exact all _ held
  | lower held dated => exact all _ held

namespace Draft

theorem combinator_ne_or_after {settings : Settings} (columnStore : settings.api = .cassandra)
    (steps : List Step) {entry : NodeId × Clause}
    (member : entry ∈ (after settings steps).tree.clauses) : entry.2.combinator ≠ .or := by
  have all : (after settings steps).Throughout .cassandra fun clause => clause.combinator ≠ .or :=
    Throughout.after
      (fun draft action clause all _ written => written.combinator_ne_or all.api_eq all.clauses)
      columnStore (fun _ _ => trivial) steps fun _ _ => trivial
  exact all.clauses entry member

theorem compile_eq_print {draft : Draft} (sound : draft.tree.Sound) (dialect : Dialect)
    (options : QueryOptions) :
    draft.compile dialect options = do
      let style ← dialect.style (draft.completed options)
      let text ← style.print options.clock draft.tree.row.pieces
      return Text.trimText (style.preamble draft.tree (draft.completed options) ++ " " ++ text) := by
  rw [compile_eq, Tree.compile]
  cases dialect.style (draft.completed options) with
  | error problem => rfl
  | ok style => exact style.write_eq draft.tree sound (draft.completed options)

/-- Along every run on a draft for a column store, no clause asks for `or`, every row but the first
shows `and`, and the words between the comparisons of its query, one less than there are clauses, are
all `and`. -/
theorem conjunction_after (settings : Settings) (columnStore : settings.api = .cassandra)
    (steps : List Step) :
    let draft := after settings steps
    (∀ entry ∈ draft.tree.clauses, entry.2.combinator ≠ .or) ∧
      (∀ row ∈ draft.rows.tail, row.combinator = .and) ∧
      (∀ dialect options, draft.compile dialect options = do
        let style ← dialect.style (draft.completed options)
        let text ← style.print options.clock draft.tree.row.pieces
        return Text.trimText (style.preamble draft.tree (draft.completed options) ++ " " ++ text)) ∧
      draft.tree.row.pieces.filterMap Piece.joiner? = List.replicate (draft.tree.size - 1) .and := by
  intro draft
  have plain : ∀ entry ∈ draft.tree.clauses, entry.2.combinator ≠ .or :=
    fun entry member => combinator_ne_or_after columnStore steps member
  have sound : draft.tree.Sound := (sound_after settings steps).mono (by decide)
  have joiners : draft.tree.clauses.tail.map (fun entry => entry.2.joiner false) =
      List.replicate (draft.tree.size - 1) .and := by
    refine List.eq_replicate_iff.mpr ⟨by simp [Tree.size], ?_⟩
    intro word member
    obtain ⟨entry, later, rfl⟩ := List.mem_map.mp member
    exact Clause.joiner_false_of_ne_or (plain entry (List.mem_of_mem_tail later))
  refine ⟨plain, ?_, fun dialect options => compile_eq_print sound dialect options, ?_⟩
  · intro row later
    have shown := List.mem_map_of_mem later (f := Row.combinator)
    rw [map_combinator_tail_rows, joiners] at shown
    exact List.eq_of_mem_replicate shown
  · rw [Forest.filterMap_joiner?_pieces draft.tree.row sound.occupied]
    exact joiners

/-- A line and an operation that ask for `or`, on clauses that are grouped afterwards. -/
theorem conjunction_after_group :
    let clock : Clock := ⟨⟨1710505845, 0⟩, 0⟩
    let settings : Settings := .sample .cassandra
    let steps : List Step :=
      [.enter clock "add total", .enter clock "add quantity", .enter clock "add userid",
        .enter clock "or #2", .act (.setCombinator 3 .or), .enter clock "select #2 #3", .act .group]
    settings.api = .cassandra ∧ (after settings steps).tree.children NodeId.root = [1, 4] ∧
      (∀ row ∈ (after settings steps).rows.tail, row.combinator = .and) ∧
      (after settings steps).tree.row.pieces.filterMap Piece.joiner? = [.and, .and] := by
  intro clock settings steps
  obtain ⟨_, rows, _, joiners⟩ := conjunction_after settings rfl steps
  have three : (after settings steps).tree.size = 3 := by decide +kernel
  rw [three] at joiners
  exact ⟨rfl, by decide +kernel, rows, joiners⟩

end Draft

end WhereEditor
