import WhereEditor.Proofs.Support
import WhereEditor.Proofs.Time.Range
import WhereEditor.Query.Style

/-!
A query phrase by phrase. Main statements: it depends on a style only through what the style begins
with and how it writes the clauses of the tree, and it fails just where a value in the tree does.
-/

namespace WhereEditor

variable {α β γ ε : Type}

/-! ## Requests that fail in one way -/

/-- There is one way for a request to fail, `problem`, and it does so under `condition`. -/
def FailsWhen (problem : ε) (condition : Prop) (request : Except ε α) : Prop :=
  ∀ other, request = .error other ↔ other = problem ∧ condition

namespace FailsWhen

variable {problem : ε} {condition further : Prop} {first : Except ε α} {second : Except ε β}

theorem map (fails : FailsWhen problem condition first) (change : α → β) :
    FailsWhen problem condition do
      let value ← first
      return change value := by
  intro other
  rw [← fails other]
  cases first with
  | error earlier => simp [bind, Except.bind]
  | ok value => simp [bind, Except.bind, pure, Except.pure]

theorem pair (fails : FailsWhen problem condition first)
    (failsLater : FailsWhen problem further second) (combine : α → β → γ) :
    FailsWhen problem (condition ∨ further) do
      let value ← first
      let later ← second
      return combine value later := by
  intro other
  cases first with
  | error earlier =>
      obtain ⟨rfl, holds⟩ := (fails earlier).mp rfl
      simp [bind, Except.bind, holds, eq_comm]
  | ok value =>
      have absent : ¬condition := by simpa using fails problem
      have same := failsLater.map (combine value) other
      simpa [bind, Except.bind, absent] using same

theorem mapM {f : α → Except ε β} {condition : α → Prop} {items : List α}
    (fails : ∀ item ∈ items, FailsWhen problem (condition item) (f item)) :
    FailsWhen problem (∃ item ∈ items, condition item) (items.mapM f) := by
  induction items with
  | nil =>
      intro other
      simp [pure, Except.pure]
  | cons item later ih =>
      obtain ⟨here, beyond⟩ := List.forall_mem_cons.mp fails
      simp only [List.mapM_cons, List.mem_cons, exists_eq_or_imp]
      exact here.pair (ih beyond) _

end FailsWhen

namespace Style

variable {style other : Style} {tree : Tree} {clock : Clock} {options : QueryOptions}

/-! ## What a query depends on -/

theorem phrase_congr {leading : Bool} {entry : NodeId × Clause}
    (same : other.writeClause clock entry.2 = style.writeClause clock entry.2) :
    other.phrase tree clock leading entry = style.phrase tree clock leading entry := by
  rw [phrase, phrase, same]

theorem phrases_congr (same : ∀ entry ∈ tree.clauses,
      other.writeClause clock entry.2 = style.writeClause clock entry.2) :
    other.phrases tree clock = style.phrases tree clock := by
  rw [phrases, phrases]
  cases entries : tree.clauses with
  | nil => rfl
  | cons first others =>
      rw [entries] at same
      obtain ⟨here, further⟩ := List.forall_mem_cons.mp same
      simp only [phrase_congr here,
        mapM_congr fun entry member => phrase_congr (further entry member)]

theorem write_congr (begins : other.head? options = style.head? options)
    (same : ∀ entry ∈ tree.clauses,
      other.writeClause options.clock entry.2 = style.writeClause options.clock entry.2) :
    other.write tree options = style.write tree options := by
  rw [write, write, phrases_congr same, begins]

/-! ## Where a query fails -/

variable {problem : Error} {condition : Value → Prop}

theorem phrase_failsWhen {entry : NodeId × Clause} (leading : Bool)
    (fails : FailsWhen problem (condition entry.2.value) (entry.2.value.resolve clock)) :
    FailsWhen problem (condition entry.2.value) (style.phrase tree clock leading entry) :=
  (fails.map _).map _

theorem phrases_failsWhen
    (fails : ∀ value, FailsWhen problem (condition value) (value.resolve clock)) :
    FailsWhen problem (∃ entry ∈ tree.clauses, condition entry.2.value)
      (style.phrases tree clock) := by
  rw [phrases]
  cases tree.clauses with
  | nil =>
      intro other
      simp
  | cons first others =>
      simp only [List.mem_cons, exists_eq_or_imp]
      have leading : FailsWhen problem (condition first.2.value)
          (style.phrase tree clock true first) := phrase_failsWhen true (fails first.2.value)
      have joined : FailsWhen problem (∃ entry ∈ others, condition entry.2.value)
          (others.mapM (style.phrase tree clock false)) :=
        FailsWhen.mapM fun entry _ => phrase_failsWhen false (fails entry.2.value)
      exact leading.pair joined _

theorem write_failsWhen
    (fails : ∀ value, FailsWhen problem (condition value) (value.resolve options.clock)) :
    FailsWhen problem (∃ entry ∈ tree.clauses, condition entry.2.value)
      (style.write tree options) :=
  (phrases_failsWhen fails).map _

end Style

end WhereEditor
