import WhereEditor.Settings.Basic
import WhereEditor.Value
import WhereEditor.Vocabulary.Operator
import WhereEditor.Vocabulary.Table

/-!
A clause compares one field with one value. Choosing its field or its type resets the rest, so
that windows and range bounds stand on DateTime clauses only; `WellTyped` says so, and the small
lemmas below say which edits keep it.
-/

namespace WhereEditor

structure Clause where
  combinator : Combinator
  field : String
  type : DataType
  operator : Operator
  value : Value
  /-- Marked for grouping. -/
  selected : Bool := false
  deriving DecidableEq

namespace Clause

def blank (api : Api) : Clause :=
  { combinator := .and, field := "", type := .stringFor api, operator := .equal, value := .empty }

def literal (combinator : Combinator) (field : String) (type : DataType) (operator : Operator)
    (text : String) : Clause :=
  { combinator, field, type, operator, value := .literal text }

/-- The word that joins the clause to what comes before it: none at the very start, `and` where
nothing was chosen. -/
def joiner (clause : Clause) (leading : Bool) : Combinator :=
  if leading then .none
  else if clause.combinator = .none then .and
  else clause.combinator

def withWindow (clause : Clause) : Clause :=
  { clause with type := .dateTime, operator := .greaterOrEqual, value := .preset default }

def withType (clause : Clause) (type : DataType) : Clause :=
  { clause with type, operator := .equal, value := .empty }

def setField (clause : Clause) (api : Api) (schema : Schema) (field : String) : Clause :=
  let clause := { clause with field }
  if field = Field.timestamp then clause.withWindow
  else if field = Field.partitionKey ∨ field = Field.rowKey then clause.withType (.stringFor api)
  else clause.withType ((schema.typeOf? api field).getD (.stringFor api))

def setType (clause : Clause) (type : DataType) : Clause :=
  if type.isDateTime then clause.withWindow else clause.withType type

def accepts (clause : Clause) (value : Value) : Bool := value.isLiteral || clause.type.isDateTime

def setValue? (clause : Clause) (value : Value) : Option Clause :=
  if clause.accepts value then some { clause with value } else none

def lowerBound (clause : Clause) (start : String) (isLocal : Bool) : Clause :=
  { clause with operator := .greaterOrEqual, value := .bound start isLocal }

def upperBound (clause : Clause) (stop : String) (isLocal : Bool) : Clause :=
  { combinator := .and, field := clause.field, type := .dateTime, operator := .less,
    value := .bound stop isLocal }

/-- Whether operator and value can be edited: not while a window is chosen, and not on a partition
key of a column store. -/
def isEditable (clause : Clause) (api : Api) (schema : Schema) : Bool :=
  (match clause.value with
    | .preset _ => false
    | _ => true) && (api != .cassandra || !schema.isPartitionKey clause.field)

def isTypeEditable (clause : Clause) (api : Api) : Bool :=
  !Field.isReserved clause.field && api != .cassandra

def WellTyped (clause : Clause) : Prop := clause.value.isLiteral = true ∨ clause.type = .dateTime

theorem wellTyped_withWindow (clause : Clause) : clause.withWindow.WellTyped := .inr rfl

theorem wellTyped_withType (clause : Clause) (type : DataType) : (clause.withType type).WellTyped :=
  .inl rfl

theorem wellTyped_setField (clause : Clause) (api : Api) (schema : Schema) (field : String) :
    (clause.setField api schema field).WellTyped := by
  unfold setField
  split
  · exact wellTyped_withWindow _
  · split <;> exact wellTyped_withType _ _

theorem wellTyped_setType (clause : Clause) (type : DataType) : (clause.setType type).WellTyped := by
  unfold setType
  split
  · exact wellTyped_withWindow _
  · exact wellTyped_withType _ _

end Clause

end WhereEditor
