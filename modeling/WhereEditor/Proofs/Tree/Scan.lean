import WhereEditor.Proofs.Support
import WhereEditor.Tree.Selection

/-!
The search for a marked run as one scan of a row from left to right, which notes where the run
begins and ends and breaks off at the first item that rules out grouping. Main statements: the scan
finds what the search finds; and a run is found exactly in rows of some unmarked items, two wholly
marked ones or more, and unmarked ones again.
-/

namespace WhereEditor

/-! ## The scan -/

/-- What has been noted so far: the bounds of the run, both included, whether grouping is ruled out,
and the length of the run. -/
structure Scan where
  first : Option Nat := none
  last : Option Nat := none
  gap : Bool := false
  count : Nat := 0

namespace Scan

def note (scan : Scan) (index : Nat) (item : Selection) : Scan :=
  let first := if scan.first.isNone && scan.last.isNone && item == .all then some index
    else scan.first
  let last := if first.isSome && scan.last.isNone && item != .all then some (index - 1)
    else scan.last
  let count := if first.isSome && last.isNone then scan.count + 1 else scan.count
  { scan with first, last, count }

def along (scan : Scan) (index : Nat) : List Selection → Scan
  | [] => scan
  | .partly :: _ => { scan with gap := true }
  | item :: later =>
      let scan := scan.note index item
      if scan.first.isSome && scan.last.isSome && item != .none then { scan with gap := true }
      else scan.along (index + 1) later

/-- The start and the length of the run in a row of `length` items; a run that has not ended goes on
to the end of the row. -/
def run? (scan : Scan) (length : Nat) : Option (Nat × Nat) :=
  let last := if !scan.gap && scan.last.isNone then (if length = 0 then none else some (length - 1))
    else scan.last
  if scan.first.isSome && !scan.gap && 1 < scan.count then do
    let first ← scan.first
    let last ← last
    return (first, last + 1 - first)
  else none

/-! ## Phases -/

variable {first last count index : Nat} {items : List Selection}

theorem along_unmarked (blanks : Nat) :
    along {} index (List.replicate blanks Selection.none ++ items) =
      along {} (index + blanks) items := by
  induction blanks generalizing index with
  | zero => rfl
  | succ blanks ih =>
      have step : along {} index (.none :: (List.replicate blanks Selection.none ++ items)) =
          along {} (index + 1) (List.replicate blanks Selection.none ++ items) := rfl
      rw [List.replicate_succ, List.cons_append, step, ih, Nat.add_right_comm, Nat.add_assoc]

theorem along_marked (marked : Nat) :
    along ⟨some first, none, false, count⟩ index (List.replicate marked Selection.all ++ items) =
      along ⟨some first, none, false, count + marked⟩ (index + marked) items := by
  induction marked generalizing index count with
  | zero => rfl
  | succ marked ih =>
      have step : along ⟨some first, none, false, count⟩ index
          (.all :: (List.replicate marked Selection.all ++ items)) =
          along ⟨some first, none, false, count + 1⟩ (index + 1)
            (List.replicate marked Selection.all ++ items) := rfl
      rw [List.replicate_succ, List.cons_append, step, ih, Nat.add_right_comm, Nat.add_assoc,
        Nat.add_right_comm index, Nat.add_assoc index]

theorem along_ended : along ⟨some first, some last, false, count⟩ index items =
    ⟨some first, some last, items.any (· != .none), count⟩ := by
  induction items generalizing index with
  | nil => rfl
  | cons item later ih =>
      cases item with
      | all | partly => rfl
      | none => exact ih

end Scan

namespace Selection

open List (replicate)

variable {items later : List Selection} {blanks more start count : Nat}

/-! ## Rows cut into runs -/

theorem exists_run (kind : Selection) (items : List Selection) :
    ∃ count later, items = replicate count kind ++ later ∧ later.head? ≠ some kind := by
  induction items with
  | nil => exact ⟨0, [], rfl, by simp⟩
  | cons item others ih =>
      by_cases same : item = kind
      · obtain ⟨count, later, whole, ends⟩ := ih
        exact ⟨count + 1, later, by rw [same, whole]; rfl, ends⟩
      · exact ⟨0, item :: others, rfl, fun first => same (Option.some.inj first)⟩

theorem exists_blocks (items : List Selection) :
    (∃ blanks, items = replicate blanks none) ∨
      (∃ blanks later, items = replicate blanks none ++ partly :: later) ∨
      ∃ blanks more later, items = replicate blanks none ++ (replicate (more + 1) all ++ later) ∧
        later.head? ≠ some all := by
  obtain ⟨blanks, later, rfl, decides⟩ := exists_run none items
  cases later with
  | nil => exact .inl ⟨blanks, List.append_nil _⟩
  | cons item others =>
      cases item with
      | none => exact absurd rfl decides
      | partly => exact .inr (.inl ⟨blanks, others, rfl⟩)
      | all =>
          obtain ⟨more, beyond, rfl, ends⟩ := exists_run all others
          exact .inr (.inr ⟨blanks, more, beyond, rfl, ends⟩)

theorem forall_eq_none_iff :
    (∀ item ∈ items, item = none) ↔ partly ∉ items ∧ all ∉ items := by
  constructor
  · intro unmarked
    exact ⟨fun member => absurd (unmarked _ member) (by decide),
      fun member => absurd (unmarked _ member) (by decide)⟩
  · rintro ⟨noPart, noWhole⟩ item member
    cases item with
    | all => exact absurd member noWhole
    | partly => exact absurd member noPart
    | none => rfl

theorem run?_of_partly (mixed : partly ∈ items) : run? items = Option.none :=
  if_neg fun allowed => allowed.1 mixed

theorem run?_of_not_mem (unmarked : all ∉ items) : run? items = Option.none := by
  refine if_neg fun allowed => ?_
  obtain ⟨item, member⟩ := List.length_pos_iff_exists_mem.mp (Nat.lt_of_succ_le
    (Nat.le_trans (by decide) allowed.2.2))
  have whole : item = all := by simpa using List.mem_takeWhile_imp member
  have inside := List.drop_subset _ _ ((List.takeWhile_sublist _).subset member)
  exact unmarked (whole ▸ inside)

theorem run?_unmarked (blanks : Nat) : run? (replicate blanks none) = Option.none :=
  run?_of_not_mem fun member => absurd (List.eq_of_mem_replicate member) (by decide)

theorem run?_blocks (ends : later.head? ≠ some all) :
    run? (replicate blanks none ++ (replicate (more + 1) all ++ later)) =
      if (∀ item ∈ later, item = none) ∧ 1 ≤ more then some (blanks, more + 1)
      else Option.none := by
  have start : ((replicate blanks none ++ (replicate (more + 1) all ++ later)).takeWhile
      (· != all)).length = blanks :=
    length_takeWhile_replicate_append rfl (by rintro item ⟨⟩; rfl) blanks
  have count : ((replicate (more + 1) all ++ later).takeWhile (· == all)).length = more + 1 := by
    refine length_takeWhile_replicate_append rfl (fun item first => ?_) _
    cases item with
    | all => exact absurd first ends
    | partly | none => rfl
  have behind : (replicate blanks none ++ (replicate (more + 1) all ++ later)).drop blanks =
      replicate (more + 1) all ++ later := List.drop_left' (List.length_replicate ..)
  have beyond : (replicate (more + 1) all ++ later).drop (more + 1) = later :=
    List.drop_left' (List.length_replicate ..)
  rw [run?, start, behind, count, ← List.drop_drop, behind, beyond]
  simp [forall_eq_none_iff, and_assoc]

/-- A run is found in rows of some unmarked items, two wholly marked ones or more, and unmarked ones
again. -/
theorem run?_eq_some_iff : run? items = some (start, count) ↔ 2 ≤ count ∧ ∃ rest,
    items = replicate start none ++ (replicate count all ++ replicate rest none) := by
  constructor
  · intro found
    rcases exists_blocks items with
      ⟨blanks, rfl⟩ | ⟨blanks, later, rfl⟩ | ⟨blanks, more, later, rfl, ends⟩
    · rw [run?_unmarked] at found
      cases found
    · rw [run?_of_partly (by simp)] at found
      cases found
    · rw [run?_blocks ends] at found
      split at found
      · rename_i allowed
        cases found
        exact ⟨Nat.succ_le_succ allowed.2, later.length, by
          rw [List.eq_replicate_of_mem allowed.1, List.length_replicate]⟩
      · cases found
  · rintro ⟨many, rest, rfl⟩
    obtain ⟨more, rfl⟩ : ∃ more, count = more + 1 := ⟨count - 1, by omega⟩
    have ends : (replicate rest none).head? ≠ some all := fun first =>
      absurd (List.eq_of_mem_replicate (List.mem_of_mem_head? first)) (by decide)
    rw [run?_blocks ends]
    exact if_pos ⟨fun item => List.eq_of_mem_replicate, Nat.le_of_succ_le_succ many⟩

end Selection

namespace Scan

open List (replicate)

theorem run?_along_blocks {later : List Selection} (ends : later.head? ≠ some .all)
    (blanks more : Nat) :
    (along {} 0 (replicate blanks Selection.none ++
        (replicate (more + 1) Selection.all ++ later))).run? (blanks + (more + 1 + later.length)) =
      if (∀ item ∈ later, item = .none) ∧ 1 ≤ more then some (blanks, more + 1) else none := by
  have begun : along {} blanks (replicate (more + 1) Selection.all ++ later) =
      along ⟨some blanks, none, false, 1⟩ (blanks + 1)
        (replicate more Selection.all ++ later) := rfl
  have width : blanks + more + 1 - blanks = more + 1 := by omega
  rw [along_unmarked, Nat.zero_add, begun, along_marked]
  cases later with
  | nil =>
      simp [along, run?, width, Nat.succ_le_iff]
  | cons item others =>
      cases item with
      | all => exact absurd rfl ends
      | partly => simp [along, run?]
      | none =>
          have stopped : along ⟨some blanks, none, false, 1 + more⟩ (blanks + 1 + more)
              (.none :: others) =
                along ⟨some blanks, some (blanks + more), false, 1 + more⟩ (blanks + 1 + more + 1)
                  others := by
            simp [along, note]
          rw [stopped, along_ended]
          simp [run?, width, Nat.succ_le_iff]

/-- The scan finds what the search finds. -/
theorem run?_along (items : List Selection) :
    (along {} 0 items).run? items.length = Selection.run? items := by
  rcases Selection.exists_blocks items with
    ⟨blanks, rfl⟩ | ⟨blanks, later, rfl⟩ | ⟨blanks, more, later, rfl, ends⟩
  · have none_ : along {} 0 (replicate blanks Selection.none ++ []) = {} := along_unmarked blanks
    rw [List.append_nil] at none_
    rw [Selection.run?_unmarked, none_]
    rfl
  · rw [Selection.run?_of_partly (by simp), along_unmarked]
    rfl
  · rw [Selection.run?_blocks ends, ← run?_along_blocks ends]
    simp

end Scan

end WhereEditor
