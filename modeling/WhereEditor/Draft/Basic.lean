import WhereEditor.Query.Dialect

/-!
A draft is a query in the making: the tree of its clauses and the settings of the table it is for.
Edits that can be refused return an error and leave the draft to the caller as it was.
-/

namespace WhereEditor

structure Draft where
  settings : Settings
  tree : Tree := {}

namespace Draft

def api (draft : Draft) : Api := draft.settings.api

def setSchema (draft : Draft) (schema : Schema) : Draft :=
  { draft with settings := { draft.settings with schema } }

/-- Adds a clause before the clause at `position`, in the same group, or at the end of the root.
It gets the id `draft.tree.next`. -/
def add (draft : Draft) (position : Nat) (field : Option String) : Draft :=
  let blank := Clause.blank draft.api
  let body := field.elim blank (blank.setField draft.api draft.settings.schema)
  let anchor := (draft.tree.clauses[position]?).map (·.1)
  { draft with tree := draft.tree.insertBefore NodeId.root anchor body }

def delete (draft : Draft) (id : NodeId) : Draft :=
  if (draft.tree.clause? id).isSome then { draft with tree := draft.tree.delete id } else draft

def clear (draft : Draft) : Draft := { draft with tree := draft.tree.clear }.add 0 none

def edit (draft : Draft) (id : NodeId) (change : Clause → Except Error Clause) :
    Except Error Draft :=
  match draft.tree.clause? id with
  | none => .error (.unknownClause id)
  | some clause => do
      let changed ← change clause
      return { draft with tree := draft.tree.updateClause id fun _ => changed }

def setField (draft : Draft) (id : NodeId) (field : String) : Except Error Draft :=
  draft.edit id fun clause => .ok (clause.setField draft.api draft.settings.schema field)

def setType (draft : Draft) (id : NodeId) (type : DataType) : Except Error Draft :=
  draft.edit id fun clause => .ok (clause.setType type)

def setOperator (draft : Draft) (id : NodeId) (operator : Operator) : Except Error Draft :=
  draft.edit id fun clause => .ok { clause with operator }

def needsDateTime (id : NodeId) (mode : String) (clause : Clause) : Error :=
  .valueNeedsDateTime id mode clause.type.name

def setValue (draft : Draft) (id : NodeId) (value : Value) : Except Error Draft :=
  draft.edit id fun clause => match clause.setValue? value with
    | some changed => .ok changed
    | none => .error (needsDateTime id value.modeName clause)

/-- Column stores know no `or`, and take `and` in its place. -/
def setCombinator (draft : Draft) (id : NodeId) (combinator : Combinator) : Except Error Draft :=
  let combinator := if draft.api = .cassandra ∧ combinator = .or then .and else combinator
  draft.edit id fun clause => .ok { clause with combinator }

def select (draft : Draft) (id : NodeId) (selected : Bool) : Draft :=
  { draft with tree := draft.tree.updateClause id fun clause => { clause with selected } }

def group? (draft : Draft) : Option Draft :=
  (draft.tree.groupSelected? NodeId.root).map fun tree => { draft with tree }

/-- Dissolves a group, or the group of a clause. -/
def ungroup (draft : Draft) (id : NodeId) : Draft :=
  let group := if draft.tree.isGroup id then some id else draft.tree.parent? id
  { draft with tree := group.elim draft.tree draft.tree.ungroup }

def loadExample (draft : Draft) (partitionKey rowKey : String) : Draft :=
  let clause (field text : String) : Clause :=
    .literal .and field (.stringFor draft.api) .equal text
  let tree := draft.tree.clear.append NodeId.root (clause Field.partitionKey partitionKey)
  { draft with tree := tree.append NodeId.root (clause Field.rowKey rowKey) }

/-- Makes a DateTime clause the lower bound of a range and adds the upper bound after it. The new
clause gets the id `draft.tree.next`. -/
def addRange (draft : Draft) (id : NodeId) (start stop : String) (isLocal : Bool) :
    Except Error Draft :=
  match draft.tree.clause? id with
  | none => .error (.unknownClause id)
  | some clause =>
      if clause.type.isDateTime then
        let tree := draft.tree.updateClause id fun _ => clause.lowerBound start isLocal
        .ok { draft with tree := tree.insertAfter id (clause.upperBound stop isLocal) }
      else .error (needsDateTime id "custom range" clause)

def compile (draft : Draft) (dialect : Dialect) (options : QueryOptions) : Except Error String :=
  draft.tree.compile dialect
    { options with
      keyspace := options.keyspace <|> draft.settings.keyspace
      table := options.table <|> draft.settings.table }

end Draft

end WhereEditor
