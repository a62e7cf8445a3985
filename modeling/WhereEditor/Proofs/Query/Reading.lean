import Mathlib.Logic.Function.Basic
import WhereEditor.Proofs.Query.Pieces
import WhereEditor.Proofs.Tree.Layers

/-!
How a query is read, `and` binding more tightly than `or`. Main statements: every query with a clause
can be read, what it means does not depend on how it is read, and two comparisons that `and` joins in
the place of one mean there what that one means where it holds just if both do.
-/

namespace WhereEditor

inductive Sign where
  | opens
  | clause (entry : NodeId × Clause)
  | joiner (word : Combinator)
  | closes

namespace Sign

def piece : Sign → Piece
  | opens => .opens
  | clause entry => .comparison entry.2
  | joiner word => .joiner word
  | closes => .closes

def entry? : Sign → Option (NodeId × Clause)
  | clause entry => some entry
  | _ => none

end Sign

/-! ## Conditions -/

inductive Condition where
  | clause (id : NodeId)
  | both (first second : Condition)
  | either (first second : Condition)

namespace Condition

def holds (truth : NodeId → Bool) : Condition → Bool
  | clause id => truth id
  | both first second => first.holds truth && second.holds truth
  | either first second => first.holds truth || second.holds truth

def replace (condition : Condition) (target : NodeId) (other : Condition) : Condition :=
  match condition with
  | clause id => if id = target then other else clause id
  | both first second => both (first.replace target other) (second.replace target other)
  | either first second => either (first.replace target other) (second.replace target other)

theorem holds_replace (truth : NodeId → Bool) (condition : Condition) (target : NodeId)
    (other : Condition) : (condition.replace target other).holds truth =
      condition.holds (Function.update truth target (other.holds truth)) := by
  induction condition with
  | clause id =>
      rw [replace, holds, Function.update_apply, apply_ite (holds truth)]
      rfl
  | both first second left right => rw [replace, holds, holds, left, right]
  | either first second left right => rw [replace, holds, holds, left, right]

end Condition

inductive Grade where
  | operand
  | conjunction
  | disjunction

/-- The readings of a query, by grades that bind less and less tightly. -/
inductive Reads : Grade → List Sign → Condition → Prop where
  | clause (entry : NodeId × Clause) : Reads .operand [.clause entry] (.clause entry.1)
  | group {signs condition} (inner : Reads .disjunction signs condition) :
      Reads .operand (.opens :: (signs ++ [Sign.closes])) condition
  | operand {signs condition} (alone : Reads .operand signs condition) :
      Reads .conjunction signs condition
  | both {signs later first second} (left : Reads .operand signs first)
      (right : Reads .conjunction later second) :
      Reads .conjunction (signs ++ .joiner .and :: later) (.both first second)
  | conjunction {signs condition} (alone : Reads .conjunction signs condition) :
      Reads .disjunction signs condition
  | either {signs later first second} (left : Reads .conjunction signs first)
      (right : Reads .disjunction later second) :
      Reads .disjunction (signs ++ .joiner .or :: later) (.either first second)

namespace Reads

variable {signs later : List Sign} {first second : Condition}

/-- An operand goes with what it is joined to. -/
theorem exists_join (left : Reads .operand signs first) (right : Reads .disjunction later second)
    {word : Combinator} (joins : word = .and ∨ word = .or) :
    ∃ condition, Reads .disjunction (signs ++ .joiner word :: later) condition := by
  rcases joins with rfl | rfl
  · cases right with
    | conjunction alone => exact ⟨_, .conjunction (.both left alone)⟩
    | either run others =>
        have joined := Reads.either (.both left run) others
        rw [List.append_assoc, List.cons_append] at joined
        exact ⟨_, joined⟩
  · exact ⟨_, .either (.operand left) right⟩

end Reads

/-! ## Meaning -/

/-- How far the reading of a disjunction has come: whether a part before the last `or` holds, and
whether all operands after it do. -/
structure Level where
  earlier : Bool := false
  last : Bool := true

namespace Level

def holds (level : Level) : Bool := level.earlier || level.last

def meet (level : Level) (value : Bool) : Level := { level with last := level.last && value }

def part (level : Level) : Level := { earlier := level.holds }

theorem meet_meet (level : Level) (first second : Bool) :
    (level.meet first).meet second = level.meet (first && second) := by
  rw [meet, meet, meet, Bool.and_assoc]

end Level

namespace Sign

/-- Reads one sign. The levels are those of the open parentheses, from the inside out. -/
def step (truth : NodeId → Bool) : List Level → Sign → List Level
  | levels, opens => {} :: levels
  | level :: outer, clause entry => level.meet (truth entry.1) :: outer
  | level :: outer, joiner .or => level.part :: outer
  | inner :: level :: outer, closes => level.meet inner.holds :: outer
  | levels, _ => levels

def run (truth : NodeId → Bool) (levels : List Level) (signs : List Sign) : List Level :=
  signs.foldl (step truth) levels

variable {truth other : NodeId → Bool} {levels : List Level} {level : Level} {signs : List Sign}

theorem run_cons (sign : Sign) (later : List Sign) :
    run truth levels (sign :: later) = run truth (sign.step truth levels) later := rfl

theorem run_append (first second : List Sign) :
    run truth levels (first ++ second) = run truth (run truth levels first) second :=
  List.foldl_append

theorem step_and : step truth levels (.joiner .and) = levels := by
  cases levels <;> rfl

/-- What an operand and a conjunction do to a level depends on what they mean alone. A disjunction
is read from the start of its level on. -/
def Means (truth : NodeId → Bool) (signs : List Sign) (value : Bool) : Grade → Prop
  | .disjunction => ∀ earlier outer, ∃ level : Level,
      run truth ({ earlier } :: outer) signs = level :: outer ∧ level.holds = (earlier || value)
  | _ => ∀ level outer, run truth (level :: outer) signs = level.meet value :: outer

end Sign

theorem Reads.means {grade : Grade} {signs : List Sign} {condition : Condition}
    (reads : Reads grade signs condition) (truth : NodeId → Bool) :
    Sign.Means truth signs (condition.holds truth) grade := by
  induction reads with
  | clause entry =>
      intro level outer
      rfl
  | group _ inner =>
      intro level outer
      obtain ⟨closed, run, value⟩ := inner false (level :: outer)
      rw [Sign.run_cons, Sign.step, Sign.run_append, run, Sign.run_cons, Sign.step, value,
        Bool.false_or]
      rfl
  | operand _ alone => exact alone
  | both _ _ left right =>
      intro level outer
      rw [Sign.run_append, left, Sign.run_cons, Sign.step_and, right, Level.meet_meet]
      rfl
  | conjunction _ alone =>
      intro earlier outer
      refine ⟨_, alone _ outer, ?_⟩
      rw [Level.holds, Level.meet, Bool.true_and]
  | either _ _ left right =>
      intro earlier outer
      rw [Sign.run_append, left, Sign.run_cons, Sign.step]
      obtain ⟨level, run, value⟩ := right _ outer
      refine ⟨level, run, ?_⟩
      rw [value, Level.holds, Level.meet, Bool.true_and, Bool.or_assoc]
      rfl

namespace Sign

variable {truth other : NodeId → Bool} {levels : List Level} {signs before beyond : List Sign}
  {id fresh : NodeId} {lower upper : Clause}

def value (truth : NodeId → Bool) (signs : List Sign) : Bool :=
  (run truth [{}] signs).any Level.holds

theorem step_congr {sign : Sign} (same : ∀ entry ∈ sign.entry?, other entry.1 = truth entry.1) :
    step other levels sign = step truth levels sign := by
  cases sign with
  | clause entry =>
      cases levels with
      | nil => rfl
      | cons level outer => rw [step, step, same entry rfl]
  | opens => rfl
  | joiner word => cases levels <;> cases word <;> rfl
  | closes =>
      rcases levels with _ | ⟨inner, _ | ⟨level, outer⟩⟩
      · rfl
      · rfl
      · rfl

theorem run_congr (same : ∀ entry ∈ signs.filterMap entry?, other entry.1 = truth entry.1) :
    run other levels signs = run truth levels signs := by
  refine List.foldl_ext _ _ _ fun levels sign member => step_congr fun entry held => ?_
  exact same entry (List.mem_filterMap.mpr ⟨sign, member, held⟩)

theorem run_pair (body : Clause) :
    run truth levels [clause (id, lower), joiner .and, clause (fresh, upper)] =
      run (Function.update truth id (truth id && truth fresh)) levels [clause (id, body)] := by
  rw [run_cons, run_cons, step_and, run_cons, run_cons]
  cases levels with
  | nil => rfl
  | cons level outer =>
      rw [step, step, step, Level.meet_meet, Function.update_self]
      rfl

theorem value_pair (body : Clause)
    (outside : ∀ entry ∈ (before ++ beyond).filterMap entry?, entry.1 ≠ id) :
    value truth (before ++ ([clause (id, lower), joiner .and, clause (fresh, upper)] ++ beyond)) =
      value (Function.update truth id (truth id && truth fresh))
        (before ++ ([clause (id, body)] ++ beyond)) := by
  have same : ∀ entry ∈ (before ++ beyond).filterMap entry?,
      truth entry.1 = Function.update truth id (truth id && truth fresh) entry.1 :=
    fun entry member => (Function.update_of_ne (outside entry member) _ _).symm
  rw [List.filterMap_append] at same
  have early := fun entry member => same entry (List.mem_append_left _ member)
  have late := fun entry member => same entry (List.mem_append_right _ member)
  simp only [value, run_append]
  rw [run_congr early, run_pair body, run_congr late]

end Sign

namespace Reads

variable {signs before beyond : List Sign} {first second condition : Condition} {id fresh : NodeId}
  {body lower upper : Clause}

theorem holds_eq (reads : Reads .disjunction signs condition) (truth : NodeId → Bool) :
    condition.holds truth = Sign.value truth signs := by
  obtain ⟨level, run, value⟩ := reads.means truth false []
  rw [Sign.value, run, List.any_cons, value]
  simp

/-- Whatever is to both sides of them, and however the queries are read, two comparisons in the place
of one mean that both hold. -/
theorem holds_pair
    (old : Reads .disjunction (before ++ ([Sign.clause (id, body)] ++ beyond)) first)
    (new : Reads .disjunction
      (before ++ ([Sign.clause (id, lower), .joiner .and, .clause (fresh, upper)] ++ beyond))
      second)
    (outside : ∀ entry ∈ (before ++ beyond).filterMap Sign.entry?, entry.1 ≠ id)
    (truth : NodeId → Bool) :
    second.holds truth =
      (first.replace id (.both (.clause id) (.clause fresh))).holds truth := by
  rw [Condition.holds_replace, new.holds_eq, Sign.value_pair body outside, old.holds_eq]
  rfl

end Reads

/-! ## The signs of a tree -/

namespace Forest

variable {row changed : Forest} {middle other : List Sign}

def bond (row : Forest) : List Sign :=
  row.leading?.toList.map fun clause => .joiner (clause.joiner false)

def signs : Forest → List Sign
  | nil => []
  | clause id body rest => .clause (id, body) :: (rest.bond ++ rest.signs)
  | group _ members rest => .opens :: (members.signs ++ .closes :: (rest.bond ++ rest.signs))

theorem map_piece_bond (row : Forest) : row.bond.map Sign.piece = row.link := by
  rw [bond, link, List.map_map]
  rfl

theorem map_piece_signs (row : Forest) : row.signs.map Sign.piece = row.pieces := by
  induction row with
  | nil => rfl
  | clause id body rest ih =>
      rw [signs, pieces, List.map_cons, List.map_append, map_piece_bond, ih]
      rfl
  | group id members rest inner ih =>
      rw [signs, pieces, List.map_cons, List.map_append, inner, List.map_cons, List.map_append,
        map_piece_bond, ih]
      rfl

theorem filterMap_entry?_bond (row : Forest) : row.bond.filterMap Sign.entry? = [] := by
  rw [bond]
  cases row.leading? <;> rfl

theorem filterMap_entry?_signs (row : Forest) : row.signs.filterMap Sign.entry? = row.clauses := by
  induction row with
  | nil => rfl
  | clause id body rest ih =>
      simp [signs, clauses, Sign.entry?, filterMap_entry?_bond, ih]
  | group id members rest inner ih =>
      rw [signs, clauses, List.filterMap_cons_none rfl, List.filterMap_append, inner,
        List.filterMap_cons_none rfl, List.filterMap_append, filterMap_entry?_bond, ih,
        List.nil_append]

/-! ## Existence -/

theorem exists_bond (occupied : row.AtLeast 1) (inhabited : 1 ≤ row.width) :
    ∃ word, row.bond = [.joiner word] ∧ (word = .and ∨ word = .or) := by
  obtain ⟨first, others, framed⟩ := List.exists_cons_of_ne_nil (framed_ne_nil occupied inhabited)
  refine ⟨first.entry.2.joiner false, ?_, Clause.joiner_false _⟩
  rw [bond, leading?_eq row occupied, framed]
  rfl

theorem exists_reading_before {signs : List Sign} {first : Condition}
    (operand : Reads .operand signs first) (occupied : row.AtLeast 1)
    (reads : 1 ≤ row.width → ∃ condition, Reads .disjunction row.signs condition) :
    ∃ condition, Reads .disjunction (signs ++ (row.bond ++ row.signs)) condition := by
  rcases Nat.eq_zero_or_pos row.width with none | inhabited
  · have empty : row = nil := eq_nil_of_width_eq_zero none
    subst empty
    have alone := Reads.conjunction (.operand operand)
    rw [← List.append_nil signs] at alone
    exact ⟨first, alone⟩
  · obtain ⟨word, bond, joins⟩ := exists_bond occupied inhabited
    obtain ⟨_, further⟩ := reads inhabited
    rw [bond]
    exact operand.exists_join further joins

theorem exists_reading (occupied : row.AtLeast 1) (inhabited : 1 ≤ row.width) :
    ∃ condition, Reads .disjunction row.signs condition := by
  induction row with
  | nil => exact absurd inhabited (by decide)
  | clause id body rest ih => exact exists_reading_before (.clause (id, body)) occupied (ih occupied)
  | group id members rest inner ih =>
      obtain ⟨enough, membersOccupied, restOccupied⟩ := occupied
      obtain ⟨_, within⟩ := inner membersOccupied enough
      have read := exists_reading_before (.group within) restOccupied (ih restOccupied)
      rwa [List.cons_append, List.append_assoc] at read

/-! ## Two rows that differ in one place -/

/-- The rows are joined by the same word to what is before them, and have the same signs but for some
that others take the place of. -/
def DifferIn (middle other : List Sign) (row changed : Forest) : Prop :=
  changed.bond = row.bond ∧ ∃ before beyond,
    row.signs = before ++ (middle ++ beyond) ∧ changed.signs = before ++ (other ++ beyond)

namespace DifferIn

theorem append (differ : DifferIn middle other row changed) (left : Forest) :
    DifferIn middle other (left ++ row) (left ++ changed) := by
  induction left with
  | nil => exact differ
  | clause id body rest ih =>
      obtain ⟨bonds, before, beyond, signs, changedSigns⟩ := ih
      refine ⟨rfl, .clause (id, body) :: ((rest ++ row).bond ++ before), beyond, ?_, ?_⟩
      · simp [Forest.signs, signs]
      · simp [Forest.signs, bonds, changedSigns]
  | group id members rest _ ih =>
      obtain ⟨bonds, before, beyond, signs, changedSigns⟩ := ih
      refine ⟨rfl, .opens :: (members.signs ++ .closes :: ((rest ++ row).bond ++ before)), beyond,
        ?_, ?_⟩
      · simp [Forest.signs, signs]
      · simp [Forest.signs, bonds, changedSigns]

theorem group (differ : DifferIn middle other row changed) (id : NodeId) (right : Forest) :
    DifferIn middle other (group id row right) (group id changed right) := by
  obtain ⟨bonds, before, beyond, signs, changedSigns⟩ := differ
  refine ⟨bonds, .opens :: before, beyond ++ .closes :: (right.bond ++ right.signs), ?_, ?_⟩
  · simp [Forest.signs, signs]
  · simp [Forest.signs, changedSigns]

theorem within (differ : DifferIn middle other row changed) (layers : List Layer) :
    DifferIn middle other (row.within layers) (changed.within layers) := by
  induction layers generalizing row changed with
  | nil => exact differ
  | cons layer outer ih => exact ih ((differ.group layer.id layer.right).append layer.left)

end DifferIn

end Forest

end WhereEditor
