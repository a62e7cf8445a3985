import WhereEditor.Proofs.Draft.Writes
import WhereEditor.Proofs.Query.Phrases

/-!
The data types of clauses along a run. Main statements: windows and bounds stand on DateTime clauses
only, so that no style is asked to write one of another type; and a clause has one of the types of
its kind of table, but for the timestamp in a column store.
-/

namespace WhereEditor

/-! ## What takes windows and bounds -/

namespace Clause

inductive Edit where
  | field (api : Api) (schema : Schema) (field : String)
  | type (type : DataType)
  | operator (operator : Operator)
  | value (value : Value)

def apply (clause : Clause) : Edit → Clause
  | .field api schema field => clause.setField api schema field
  | .type type => clause.setType type
  | .operator operator => { clause with operator }
  | .value value => (clause.setValue? value).getD clause

theorem wellTyped_setValue? {clause changed : Clause} {value : Value}
    (accepted : clause.setValue? value = some changed) : changed.WellTyped := by
  rw [setValue?] at accepted
  split at accepted
  · rename_i fits
    cases accepted
    rw [accepts, Bool.or_eq_true, DataType.isDateTime_iff] at fits
    exact fits
  · exact absurd accepted (by simp)

theorem WellTyped.apply {clause : Clause} (typed : clause.WellTyped) (edit : Edit) :
    (clause.apply edit).WellTyped := by
  cases edit with
  | field api schema field => exact wellTyped_setField clause api schema field
  | type type => exact wellTyped_setType clause type
  | operator operator => exact typed
  | value value =>
      rw [Clause.apply]
      cases accepted : clause.setValue? value with
      | none => exact typed
      | some changed => exact wellTyped_setValue? accepted

theorem WellTyped.foldl_apply {clause : Clause} (typed : clause.WellTyped) (edits : List Edit) :
    (edits.foldl Clause.apply clause).WellTyped := by
  induction edits generalizing clause with
  | nil => exact typed
  | cons edit later ih => exact ih (typed.apply edit)

end Clause

theorem Draft.Writes.wellTyped {draft : Draft} {action : Action} {clause : Clause}
    (all : ∀ entry ∈ draft.tree.clauses, entry.2.WellTyped)
    (written : draft.Writes action clause) : clause.WellTyped := by
  cases written with
  | blank => exact .inl rfl
  | named => exact Clause.wellTyped_setField _ _ _ _
  | restart => exact .inl rfl
  | field held => exact Clause.wellTyped_setField _ _ _ _
  | type held => exact Clause.wellTyped_setType _ _
  | operator held => exact all _ held
  | value held accepted => exact Clause.wellTyped_setValue? accepted
  | combinator held => exact all _ held
  | mark held => exact all _ held
  | unmark held => exact all _ held
  | partitionKey => exact .inl rfl
  | rowKey => exact .inl rfl
  | lower held dated => exact .inr (DataType.isDateTime_iff.mp dated)
  | upper held dated => exact .inr rfl

/-! ## What a style is given -/

def Resolved.isLiteral : Resolved → Bool
  | literal _ => true
  | _ => false

namespace Comparison

def WellTyped (comparison : Comparison) : Prop :=
  comparison.value.isLiteral = true ∨ comparison.type = .dateTime

instance (comparison : Comparison) : Decidable comparison.WellTyped :=
  inferInstanceAs (Decidable (_ ∨ _))

end Comparison

theorem Value.isLiteral_of_resolve {clock : Clock} {value : Value} {resolved : Resolved}
    (plain : value.isLiteral = true) (done : value.resolve clock = .ok resolved) :
    resolved.isLiteral = true := by
  cases value with
  | literal text =>
      cases done
      rfl
  | preset window => exact absurd plain (by simp [isLiteral])
  | bound text isLocal => exact absurd plain (by simp [isLiteral])

namespace Style

def guarded (style : Style) (other : Comparison → String) : Style where
  head? := style.head?
  comparison comparison :=
    if comparison.WellTyped then style.comparison comparison else other comparison

theorem writeClause_guarded (style : Style) (other : Comparison → String) (clock : Clock)
    {clause : Clause} (typed : clause.WellTyped) :
    (style.guarded other).writeClause clock clause = style.writeClause clock clause := by
  rw [writeClause, writeClause]
  cases resolved : clause.value.resolve clock with
  | error problem => rfl
  | ok value =>
      refine congrArg Except.ok (if_pos ?_)
      exact typed.imp_left fun plain => Value.isLiteral_of_resolve plain resolved

end Style

namespace Draft

/-- After any run, and so after each step of it, windows and bounds stand on DateTime clauses only.
It is so for a clause on its own as well, along any edits from a new one on. Hence it does not matter
to a query how its style would write a moment, or a bound that is no date, of another type. -/
theorem wellTyped_after (settings : Settings) (steps : List Step) :
    let tree := (after settings steps).tree
    (∀ entry ∈ tree.clauses, entry.2.WellTyped) ∧
      (∀ api (edits : List Clause.Edit), (edits.foldl Clause.apply (.blank api)).WellTyped) ∧
      (∀ combinator field type operator text (edits : List Clause.Edit),
        (edits.foldl Clause.apply (.literal combinator field type operator text)).WellTyped) ∧
      ∀ (style : Style) (other : Comparison → String) (options : QueryOptions),
        (style.guarded other).write tree options = style.write tree options := by
  intro tree
  have typed : ∀ entry ∈ tree.clauses, entry.2.WellTyped := by
    have all : (after settings steps).Throughout settings.api Clause.WellTyped :=
      Throughout.after (fun draft action clause all _ written => written.wellTyped all.clauses) rfl
        (fun _ _ => trivial) steps fun _ _ => trivial
    exact all.clauses
  refine ⟨typed, ?_, ?_, ?_⟩
  · intro api edits
    have start : (Clause.blank api).WellTyped := .inl rfl
    exact start.foldl_apply edits
  · intro combinator field type operator text edits
    have start : (Clause.literal combinator field type operator text).WellTyped := .inl rfl
    exact start.foldl_apply edits
  · intro style other options
    refine Style.write_congr rfl ?_
    intro entry member
    exact style.writeClause_guarded other options.clock (typed entry member)

/-- Both bounds of a range. -/
theorem wellTyped_after_range :
    let steps : List Step :=
      [.act (.add 0 (some "Timestamp")), .act (.addRange 1 "today" "tomorrow" true)]
    ((after (.sample .tables) steps).tree.clauses.map fun entry => entry.2.value) =
        [.bound "today" true, .bound "tomorrow" true] ∧
      ∀ entry ∈ (after (.sample .tables) steps).tree.clauses, entry.2.WellTyped := by
  intro steps
  exact ⟨by decide, (wellTyped_after (.sample .tables) steps).1⟩

end Draft

/-! ## The types of a kind of table -/

namespace Clause

def Fits (api : Api) (clause : Clause) : Prop :=
  clause.type ∈ DataType.options api ∨
    (api = .cassandra ∧ clause.field = Field.timestamp ∧ clause.type = .dateTime)

theorem fits_withType {api : Api} {type : DataType} (offered : type ∈ DataType.options api)
    (clause : Clause) : (clause.withType type).Fits api := .inl offered

theorem fits_setField (api : Api) (schema : Schema) (clause : Clause) (field : String) :
    (clause.setField api schema field).Fits api := by
  rw [setField]
  split
  · rename_i stamped
    cases api with
    | tables =>
        have listed : DataType.dateTime ∈ DataType.options .tables := by decide
        exact .inl listed
    | cassandra => exact .inr ⟨rfl, stamped, rfl⟩
  · split
    · exact fits_withType (DataType.stringFor_mem_options api) _
    · cases found : schema.typeOf? api field with
      | none => exact fits_withType (DataType.stringFor_mem_options api) _
      | some type => exact fits_withType (Schema.mem_options_of_typeOf? found) _

theorem fits_setType {api : Api} {type : DataType} (offered : type ∈ DataType.options api)
    (clause : Clause) : (clause.setType type).Fits api := by
  rw [setType]
  split
  · rename_i dated
    rw [DataType.isDateTime_iff.mp dated] at offered
    exact .inl offered
  · exact fits_withType offered clause

end Clause

theorem Draft.Writes.fits {draft : Draft} {action : Action} {clause : Clause}
    (all : ∀ entry ∈ draft.tree.clauses, entry.2.Fits draft.api)
    (offered : action.Offered draft.api) (written : draft.Writes action clause) :
    clause.Fits draft.api := by
  cases written with
  | blank => exact .inl (DataType.stringFor_mem_options draft.api)
  | named => exact Clause.fits_setField _ _ _ _
  | restart => exact .inl (DataType.stringFor_mem_options draft.api)
  | field held => exact Clause.fits_setField _ _ _ _
  | type held => exact Clause.fits_setType offered _
  | operator held => exact all _ held
  | value held accepted =>
      rw [Clause.setValue?] at accepted
      split at accepted
      · cases accepted
        exact all _ held
      · exact absurd accepted (by simp)
  | combinator held => exact all _ held
  | mark held => exact all _ held
  | unmark held => exact all _ held
  | partitionKey => exact .inl (DataType.stringFor_mem_options draft.api)
  | rowKey => exact .inl (DataType.stringFor_mem_options draft.api)
  | lower held dated => exact all _ held
  | upper held dated =>
      -- The new clause takes the field over, and the type that the old one has already.
      have fits := all _ held
      rw [Clause.Fits, DataType.isDateTime_iff.mp dated] at fits
      exact fits

namespace Draft

/-- After any run that sets types from those offered only, as all lines do, a clause has one of the
types of its kind of table. The exception is the timestamp in a column store: it is a DateTime. -/
theorem type_mem_options_after (settings : Settings) (steps : List Step)
    (offered : ∀ action, .act action ∈ steps → action.Offered settings.api)
    {entry : NodeId × Clause} (member : entry ∈ (after settings steps).tree.clauses) :
    entry.2.type ∈ DataType.options settings.api ∨
      (settings.api = .cassandra ∧ entry.2.field = Field.timestamp ∧ entry.2.type = .dateTime) := by
  have all : (after settings steps).Throughout settings.api (Clause.Fits settings.api) := by
    refine Throughout.after ?_ rfl (fun _ typed => typed) steps offered
    intro draft action clause all typed written
    have same := all.api_eq
    rw [← same] at all typed ⊢
    exact written.fits all.clauses typed
  exact all.clauses entry member

/-- A column that is declared, another schema, and the timestamp. -/
theorem type_mem_options_after_total :
    let clock : Clock := ⟨⟨1710505845, 0⟩, 0⟩
    let steps : List Step :=
      [.enter clock "add total", .act (.setSchema {}), .enter clock "add Timestamp"]
    (∀ action, .act action ∈ steps → action.Offered .cassandra) ∧
      ((after (.sample .cassandra) steps).tree.clauses.map fun entry => entry.2.type) =
        [.cql .decimal, .dateTime] ∧
      ∀ entry ∈ (after (.sample .cassandra) steps).tree.clauses,
        entry.2.type ∈ DataType.options .cassandra ∨
          (Api.cassandra = .cassandra ∧ entry.2.field = Field.timestamp ∧
            entry.2.type = .dateTime) := by
  intro clock steps
  have offered : ∀ action, .act action ∈ steps → action.Offered .cassandra := by
    intro action member
    cases action <;> simp [steps, Action.Offered] at member ⊢
  refine ⟨offered, by decide +kernel, ?_⟩
  intro entry member
  exact type_mem_options_after (.sample .cassandra) steps offered member

/-- One line is enough for a type of entity tables in a column store. -/
theorem exists_type_not_mem_options :
    let clock : Clock := ⟨⟨1710505845, 0⟩, 0⟩
    ∃ entry ∈ (after (.sample .cassandra) [.enter clock "add Timestamp"]).tree.clauses,
      entry.2.type ∉ DataType.options .cassandra := by
  decide +kernel

end Draft

end WhereEditor
