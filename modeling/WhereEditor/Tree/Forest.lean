import WhereEditor.Clause

/-!
A forest is a row of siblings, clauses and groups, from left to right; the members of a group are
a forest again. The views below list its ids and its clauses and find a node by its id; the edits
change one place and leave all others as they are.
-/

namespace WhereEditor

inductive Forest where
  | nil
  | clause (id : NodeId) (body : Clause) (rest : Forest)
  | group (id : NodeId) (members : Forest) (rest : Forest)
  deriving DecidableEq

namespace Forest

/-! ## Rows -/

def append : Forest → Forest → Forest
  | nil, tail => tail
  | clause id body rest, tail => clause id body (rest.append tail)
  | group id members rest, tail => group id members (rest.append tail)

instance : Append Forest := ⟨append⟩

def heads : Forest → List NodeId
  | nil => []
  | clause id _ rest => id :: rest.heads
  | group id _ rest => id :: rest.heads

def width (row : Forest) : Nat := row.heads.length

def take : Forest → Nat → Forest
  | nil, _ => nil
  | _, 0 => nil
  | clause id body rest, count + 1 => clause id body (rest.take count)
  | group id members rest, count + 1 => group id members (rest.take count)

def drop : Forest → Nat → Forest
  | row, 0 => row
  | nil, _ => nil
  | clause _ _ rest, count + 1 => rest.drop count
  | group _ _ rest, count + 1 => rest.drop count

def eraseIdx (row : Forest) (index : Nat) : Forest := row.take index ++ row.drop (index + 1)

/-! ## Views -/

def ids : Forest → List NodeId
  | nil => []
  | clause id _ rest => id :: rest.ids
  | group id members rest => id :: (members.ids ++ rest.ids)

def clauses : Forest → List (NodeId × Clause)
  | nil => []
  | clause id body rest => (id, body) :: rest.clauses
  | group _ members rest => members.clauses ++ rest.clauses

def clause? (target : NodeId) : Forest → Option Clause
  | nil => none
  | clause id body rest => if id = target then some body else rest.clause? target
  | group _ members rest => members.clause? target <|> rest.clause? target

def members? (target : NodeId) : Forest → Option Forest
  | nil => none
  | clause _ _ rest => rest.members? target
  | group id members rest =>
      if id = target then some members else members.members? target <|> rest.members? target

def height : Forest → Nat
  | nil => 0
  | clause _ _ rest => rest.height
  | group _ members rest => max (members.height + 1) rest.height

/-- The first of the most deeply nested groups, and how many groups lie around it. -/
def deepest? : Forest → Option (NodeId × Nat)
  | nil => none
  | clause _ _ rest => rest.deepest?
  | group id members rest =>
      let here := match members.deepest? with
        | some (inner, depth) => (inner, depth + 1)
        | none => (id, 0)
      match rest.deepest? with
      | some later => if here.2 < later.2 then some later else some here
      | none => some here

/-! ## Edits -/

def updateClause (target : NodeId) (edit : Clause → Clause) : Forest → Forest
  | nil => nil
  | clause id body rest => clause id (if id = target then edit body else body)
      (rest.updateClause target edit)
  | group id members rest =>
      group id (members.updateClause target edit) (rest.updateClause target edit)

def updateMembers (target : NodeId) (edit : Forest → Forest) : Forest → Forest
  | nil => nil
  | clause id body rest => clause id body (rest.updateMembers target edit)
  | group id members rest =>
      group id (if id = target then edit members else members.updateMembers target edit)
        (rest.updateMembers target edit)

def insertBefore (anchor fresh : NodeId) (body : Clause) : Forest → Forest
  | nil => nil
  | clause id here rest =>
      if id = anchor then clause fresh body (clause id here rest)
      else clause id here (rest.insertBefore anchor fresh body)
  | group id members rest =>
      if id = anchor then clause fresh body (group id members rest)
      else group id (members.insertBefore anchor fresh body) (rest.insertBefore anchor fresh body)

def insertAfter (anchor fresh : NodeId) (body : Clause) : Forest → Forest
  | nil => nil
  | clause id here rest =>
      if id = anchor then clause id here (clause fresh body rest)
      else clause id here (rest.insertAfter anchor fresh body)
  | group id members rest =>
      if id = anchor then group id members (clause fresh body rest)
      else group id (members.insertAfter anchor fresh body) (rest.insertAfter anchor fresh body)

/-- A group that has lost a member, before the rest of its row: a lone survivor takes its place,
and without one the group is gone. -/
def settle (id : NodeId) (members rest : Forest) : Forest :=
  match members with
  | nil => rest
  | clause survivor body nil => clause survivor body rest
  | group survivor inner nil => group survivor inner rest
  | _ => group id members rest

def erase (target : NodeId) : Forest → Forest
  | nil => nil
  | clause id body rest => if id = target then rest else clause id body (rest.erase target)
  | group id members rest =>
      if id = target then rest
      else
        let left := members.erase target
        if left.width < members.width then settle id left (rest.erase target)
        else group id left (rest.erase target)

def ungroup (target : NodeId) : Forest → Forest
  | nil => nil
  | clause id body rest => clause id body (rest.ungroup target)
  | group id members rest =>
      if id = target then members ++ rest
      else group id (members.ungroup target) (rest.ungroup target)

def unselect : Forest → Forest
  | nil => nil
  | clause id body rest => clause id { body with selected := false } rest.unselect
  | group id members rest => group id members.unselect rest.unselect

def wrap (start count : Nat) (fresh : NodeId) (row : Forest) : Forest :=
  row.take start ++ group fresh ((row.drop start).take count) (row.drop (start + count))

end Forest

end WhereEditor
