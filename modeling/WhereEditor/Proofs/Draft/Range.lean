import WhereEditor.Proofs.Draft.Action
import WhereEditor.Proofs.Query.Reading
import WhereEditor.Proofs.Tree.Descent
import WhereEditor.Proofs.Tree.Insertion

/-!
Ranges. Main statement: a range on a DateTime clause makes it the lower bound and puts the upper
bound directly after it, nothing else changes, and the query means what it meant with both bounds in
the place of that clause, however it is nested and joined.
-/

namespace WhereEditor

namespace Forest

theorem differIn_pair (id fresh : NodeId) {body lower upper : Clause} (right : Forest)
    (same : lower.combinator = body.combinator) (joins : upper.combinator = .and) :
    DifferIn [.clause (id, body)] [.clause (id, lower), .joiner .and, .clause (fresh, upper)]
      (clause id body right) (clause id lower (clause fresh upper right)) := by
  refine ⟨?_, [], right.bond ++ right.signs, rfl, ?_⟩
  · simp [bond, leading?, Clause.joiner, same]
  · simp [signs, bond, leading?, Clause.joiner, joins]

end Forest

namespace Tree

variable {tree : Tree} {id : NodeId} {body lower upper : Clause}

def Written (tree : Tree) (signs : List Sign) : Prop :=
  ∀ (style : Style) (options : QueryOptions), style.write tree options = do
    let text ← style.print options.clock (signs.map Sign.piece)
    return Text.trimText (style.preamble tree options ++ " " ++ text)

namespace Sound

theorem written (sound : tree.Sound) : tree.Written tree.row.signs := by
  intro style options
  rw [Forest.map_piece_signs]
  exact style.write_eq tree sound options

theorem exists_reading (sound : tree.Sound) (member : id ∈ tree.row.ids) :
    ∃ condition, Reads .disjunction tree.row.signs condition := by
  refine Forest.exists_reading sound.occupied (Nat.pos_of_ne_zero fun none => ?_)
  rw [Forest.eq_nil_of_width_eq_zero none] at member
  exact List.not_mem_nil member

theorem exists_signs_pair (sound : tree.Sound) (found : tree.clause? id = some body)
    (same : lower.combinator = body.combinator) (joins : upper.combinator = .and) :
    ∃ before beyond, tree.row.signs = before ++ ([Sign.clause (id, body)] ++ beyond) ∧
      ((tree.updateClause id fun _ => lower).insertAfter id upper).row.signs =
        before ++ ([Sign.clause (id, lower), .joiner .and, .clause (tree.next, upper)] ++
          beyond) := by
  obtain ⟨left, right, layers, whole⟩ :=
    Forest.exists_cut_of_mem_clauses sound.distinct (Forest.mem_clauses_of_clause? found)
  have changed : (tree.updateClause id fun _ => lower).row =
      (left ++ (Forest.clause id lower .nil ++ right)).within layers := by
    have distinct := whole ▸ sound.distinct
    refine (congrArg _ whole).trans ?_
    rw [(Forest.actsAt_updateClause id _).cut distinct (.clause body), Forest.updateClause,
      if_pos rfl]
    rfl
  have grown := (sound.updateClause id _).row_insertAfter changed (.clause lower) upper
  obtain ⟨_, before, beyond, signs, changedSigns⟩ :=
    ((Forest.differIn_pair id tree.next right same joins).append left).within layers
  exact ⟨before, beyond, (congrArg Forest.signs whole).trans signs,
    (congrArg Forest.signs grown).trans changedSigns⟩

theorem ne_of_signs (sound : tree.Sound) {before beyond : List Sign}
    (signs : tree.row.signs = before ++ ([Sign.clause (id, body)] ++ beyond)) :
    ∀ entry ∈ (before ++ beyond).filterMap Sign.entry?, entry.1 ≠ id := by
  have distinct := sound.distinct.sublist tree.row.map_fst_clauses_sublist
  rw [← Forest.filterMap_entry?_signs, signs, List.filterMap_append, List.map_append] at distinct
  obtain ⟨apart, _⟩ := List.nodup_cons.mp (List.nodup_middle.mp distinct)
  rw [← List.map_append, ← List.filterMap_append] at apart
  intro entry member named
  have there := List.mem_map_of_mem (f := Prod.fst) member
  rw [named] at there
  exact apart there

end Sound

end Tree

namespace Draft

theorem addRange_of_dateTime {draft : Draft} {id : NodeId} {clause : Clause}
    (found : draft.tree.clause? id = some clause) (dateTime : clause.type = .dateTime)
    (start stop : String) (isLocal : Bool) :
    draft.addRange id start stop isLocal = .ok { draft with
      tree := (draft.tree.updateClause id fun _ => clause.lowerBound start isLocal).insertAfter id
        (clause.upperBound stop isLocal) } := by
  have isDateTime : clause.type.isDateTime = true := by
    rw [dateTime]
    rfl
  rw [addRange, found]
  exact if_pos isDateTime

/-- In every draft that operations and lines lead to, a range on a DateTime clause is taken. The
clause becomes the lower bound and keeps the rest, the upper bound is a new clause, the next item in
the same row, and no other clause or group changes. However the queries before and after are read,
`and` binding more tightly than `or`, the second one means what the first one means with both bounds
in the place of the clause. -/
theorem addRange_after (settings : Settings) (steps : List Step) {id : NodeId} {clause : Clause}
    (found : (after settings steps).tree.clause? id = some clause)
    (dateTime : clause.type = .dateTime) (start stop : String) (isLocal : Bool) :
    let draft := after settings steps
    let fresh := draft.tree.next
    let lower : Clause :=
      { clause with operator := .greaterOrEqual, value := .bound start isLocal }
    let upper : Clause :=
      { combinator := .and, field := clause.field, type := .dateTime, operator := .less,
        value := .bound stop isLocal, selected := false }
    ∃ ranged, draft.addRange id start stop isLocal = .ok ranged ∧
      ranged.settings = draft.settings ∧
      (∃ holder, draft.tree.Follows holder id fresh ranged.tree) ∧
      (∃ before beyond, draft.tree.clauses = before ++ (id, clause) :: beyond ∧
        ranged.tree.clauses = before ++ (id, lower) :: (fresh, upper) :: beyond) ∧
      draft.tree.Written draft.tree.row.signs ∧ ranged.tree.Written ranged.tree.row.signs ∧
      (∃ old, Reads .disjunction draft.tree.row.signs old) ∧
      (∃ new, Reads .disjunction ranged.tree.row.signs new) ∧
      ∀ old new, Reads .disjunction draft.tree.row.signs old →
        Reads .disjunction ranged.tree.row.signs new → ∀ truth,
          new.holds truth =
            (old.replace id (.both (.clause id) (.clause fresh))).holds truth := by
  intro draft fresh lower upper
  have sound : draft.tree.Sound := (sound_after settings steps).mono (by decide)
  have changed : (draft.tree.updateClause id fun _ => lower).Sound := sound.updateClause id _
  have member : id ∈ (draft.tree.updateClause id fun _ => lower).row.ids := by
    rw [Tree.updateClause, Forest.ids_updateClause]
    exact Forest.mem_ids_of_mem_clauses (Forest.mem_clauses_of_clause? found)
  have grown := changed.insertAfter id upper
  obtain ⟨holder, follows⟩ := changed.follows_insertAfter member upper
  have keeps : lower.combinator = clause.combinator := rfl
  have joins : upper.combinator = .and := rfl
  obtain ⟨before, beyond, signs, grownSigns⟩ := sound.exists_signs_pair found keeps joins
  refine ⟨_, addRange_of_dateTime found dateTime start stop isLocal, rfl,
    ⟨holder, sound.follows_of_updateClause follows⟩,
    ⟨before.filterMap Sign.entry?, beyond.filterMap Sign.entry?, ?_, ?_⟩, sound.written,
    grown.written, ?_, ?_, ?_⟩
  · rw [Tree.clauses, ← Forest.filterMap_entry?_signs, signs, List.filterMap_append]
    rfl
  · refine (Forest.filterMap_entry?_signs _).symm.trans ((congrArg _ grownSigns).trans ?_)
    rw [List.filterMap_append]
    rfl
  · rw [Tree.updateClause, Forest.ids_updateClause] at member
    exact sound.exists_reading member
  · have old := (changed.ids_insertAfter_perm id upper).mem_iff.mpr (List.mem_cons_of_mem _ member)
    exact grown.exists_reading old
  · intro old new readsOld readsNew
    rw [signs] at readsOld
    have readsPair := grownSigns ▸ readsNew
    exact readsOld.holds_pair readsPair (sound.ne_of_signs signs)

/-- A range between a clause that it is joined to by `or` and a group. -/
theorem addRange_after_middle :
    let settings : Settings := .sample .tables
    let steps : List Step :=
      [.act (.add 0 none), .act (.add 1 (some Field.timestamp)), .act (.add 2 none),
        .act (.add 3 none), .act (.setCombinator 2 .or), .act (.select 3 true),
        .act (.select 4 true), .act .group]
    let clause : Clause :=
      { combinator := .or, field := Field.timestamp, type := .dateTime, operator := .greaterOrEqual,
        value := .preset default }
    (after settings steps).tree.clause? 2 = some clause ∧ clause.type = .dateTime ∧
      (after settings steps).tree.next = 6 ∧
      ∃ ranged, (after settings steps).addRange 2 "2024-01-01" "2024-02-01" false = .ok ranged ∧
        ranged.tree.children NodeId.root = [1, 2, 6, 5] ∧
        ∀ old new, Reads .disjunction (after settings steps).tree.row.signs old →
          Reads .disjunction ranged.tree.row.signs new → ∀ truth,
            new.holds truth =
              (old.replace 2
                (.both (.clause 2) (.clause (after settings steps).tree.next))).holds truth := by
  intro settings steps clause
  have found : (after settings steps).tree.clause? 2 = some clause := by decide +kernel
  obtain ⟨ranged, done, _, _, _, _, _, _, _, means⟩ :=
    addRange_after settings steps found rfl "2024-01-01" "2024-02-01" false
  have items : ((after settings steps).addRange 2 "2024-01-01" "2024-02-01" false).toOption.map
      (fun ranged => ranged.tree.children NodeId.root) = some [1, 2, 6, 5] := by decide +kernel
  rw [done] at items
  exact ⟨found, rfl, by decide +kernel, ranged, done, Option.some.inj items, means⟩

end Draft

end WhereEditor
