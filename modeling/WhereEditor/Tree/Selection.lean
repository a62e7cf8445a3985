import WhereEditor.Tree.Forest

/-!
Marks for grouping. A clause is marked or not; a group counts as wholly marked when all of its
items are, and as unmarked when none of them is wholly marked. A run of marked neighbours can be
grouped if it has at least two items, nothing else in its row is marked, and nothing is partly so.
-/

namespace WhereEditor

inductive Selection where
  | all
  | partly
  | none
  deriving DecidableEq

namespace Selection

/-- The selection of a group, from those of its items; an empty group is wholly marked. -/
def ofItems (items : List Selection) : Selection :=
  let marked := items.count all
  if marked = items.length then all else if marked = 0 then none else partly

/-- Where the only run of marked items starts and how long it is, if it can be grouped. -/
def run? (items : List Selection) : Option (Nat × Nat) :=
  let start := (items.takeWhile (· != all)).length
  let count := ((items.drop start).takeWhile (· == all)).length
  if partly ∉ items ∧ all ∉ items.drop (start + count) ∧ 2 ≤ count then some (start, count)
  else Option.none

end Selection

namespace Forest

def selections : Forest → List Selection
  | nil => []
  | clause _ body rest => (if body.selected then .all else .none) :: rest.selections
  | group _ members rest => .ofItems members.selections :: rest.selections

def selection (row : Forest) : Selection := .ofItems row.selections

end Forest

end WhereEditor
