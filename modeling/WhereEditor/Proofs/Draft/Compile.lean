import WhereEditor.Proofs.Draft.Action
import WhereEditor.Proofs.Query.Phrases

/-!
When a draft cannot be compiled. Main statement: by a clock of the years 1 to 9999 that happens in
two cases only, when a table is to be named and is not known, and when UTC for a bound in local time
lies outside the supported years.
-/

namespace WhereEditor

theorem Dialect.style_eq_error_iff {dialect : Dialect} {options : QueryOptions} {problem : Error} :
    dialect.style options = .error problem ↔ problem = .missingTableReference ∧
      dialect = .cql ∧ (options.keyspace = none ∨ options.table = none) := by
  cases dialect with
  | filter => simp [style]
  | sql => simp [style]
  | cql =>
      rw [style]
      cases options.keyspace with
      | none => simp [eq_comm]
      | some keyspace =>
          cases options.table with
          | none => simp [eq_comm]
          | some table => simp

namespace Draft

def completed (draft : Draft) (options : QueryOptions) : QueryOptions :=
  { options with
    keyspace := options.keyspace <|> draft.settings.keyspace
    table := options.table <|> draft.settings.table }

theorem compile_eq (draft : Draft) (dialect : Dialect) (options : QueryOptions) :
    draft.compile dialect options = draft.tree.compile dialect (draft.completed options) := rfl

def LacksTable (draft : Draft) (dialect : Dialect) (options : QueryOptions) : Prop :=
  dialect = .cql ∧
    ((draft.completed options).keyspace = none ∨ (draft.completed options).table = none)

/-- Whatever the clauses of a draft hold, by an ordinary clock it is compiled to a query in every
dialect, with two exceptions: a table that is not known, and a bound in local time for which UTC lies
outside the supported years. -/
theorem compile_eq_error_iff (draft : Draft) (dialect : Dialect) (options : QueryOptions)
    (ordinary : options.clock.Ordinary) (problem : Error) :
    draft.compile dialect options = .error problem ↔
      (problem = .missingTableReference ∧ draft.LacksTable dialect options) ∨
        (problem = .dateOutOfRange ∧ ¬draft.LacksTable dialect options ∧
          ∃ entry ∈ draft.tree.clauses, ∃ text, entry.2.value = .bound text true ∧
            Time.Escapes options.clock.offset text) := by
  rw [compile_eq, Tree.compile]
  cases chosen : dialect.style (draft.completed options) with
  | error other =>
      obtain ⟨rfl, missing⟩ := Dialect.style_eq_error_iff.mp chosen
      have lacks : draft.LacksTable dialect options := missing
      simp [bind, Except.bind, lacks, eq_comm]
  | ok style =>
      have named : ¬draft.LacksTable dialect options := by
        intro missing
        have failed := Dialect.style_eq_error_iff.mpr ⟨rfl, missing⟩
        exact absurd (chosen.symm.trans failed) (by simp)
      have resolves : ∀ value : Value, FailsWhen .dateOutOfRange
          (∃ text, value = .bound text true ∧ Time.Escapes options.clock.offset text)
          (value.resolve (draft.completed options).clock) :=
        fun value other => Value.resolve_eq_error_iff ordinary
      have fails : FailsWhen .dateOutOfRange _ (style.write draft.tree (draft.completed options)) :=
        Style.write_failsWhen resolves
      simpa [bind, Except.bind, named] using fails problem

/-- A bound in the last second of the supported years, typed a second behind UTC. -/
theorem exists_escaping_bound :
    let clock : Clock := ⟨⟨1710505845, 0⟩, -1⟩
    let draft := after (.sample .tables)
      [.enter clock "add Timestamp",
        .enter clock "range #1 +262142-12-31T23:59:59 2024-01-01 local"]
    clock.Ordinary ∧ draft.compile .filter { clock } = .error .dateOutOfRange ∧
      ∃ entry ∈ draft.tree.clauses, ∃ text, entry.2.value = .bound text true ∧
        Time.Escapes clock.offset text := by
  intro clock draft
  have ordinary : clock.Ordinary :=
    ⟨by decide +kernel, by decide +kernel, by decide, by decide⟩
  have failed : draft.compile .filter { clock } = .error .dateOutOfRange := by decide +kernel
  refine ⟨ordinary, failed, ?_⟩
  rcases (compile_eq_error_iff draft .filter { clock } ordinary _).mp failed with
    ⟨distinct, _⟩ | ⟨_, _, escapes⟩
  · exact absurd distinct (by decide)
  · exact escapes

/-- Lines alone lead to drafts that cannot be compiled, at either end of the supported years. -/
theorem compile_escaping_bounds :
    let behind : Clock := ⟨⟨1710505845, 0⟩, -1⟩
    let ahead : Clock := ⟨⟨1710505845, 0⟩, 3600⟩
    let draft (clock : Clock) (range : String) : Draft :=
      after (.sample .tables) [.enter clock "add Timestamp", .enter clock range]
    (draft behind "range #1 +262142-12-31T23:59:59 2024-01-01 local").compile .sql
        { clock := behind } = .error .dateOutOfRange ∧
      (draft ahead "range #1 -262143-01-01 2024-01-01 local").compile .filter
        { clock := ahead } = .error .dateOutOfRange := by
  decide +kernel

end Draft

end WhereEditor
