import WhereEditor.Text.Decimal

/-!
Node ids, and the reasons for which a request on a draft is refused.
-/

namespace WhereEditor

/-- Clauses and groups are numbered alike, from 1 on; 0 is the root group. -/
abbrev NodeId := Nat

namespace NodeId

def root : NodeId := 0

def label (id : NodeId) : String := "#" ++ toString id

/-- Reads `#12` or `12`; any number of number signs may stand in front. -/
def ofText? (text : String) : Option NodeId :=
  Text.index? (text.toList.dropWhile (· == '#'))

end NodeId

inductive NameKind where
  | operator
  | combinator
  | preset
  | nodeId
  | dialect
  | dataType
  deriving DecidableEq

def NameKind.label : NameKind → String
  | operator => "operator"
  | combinator => "combinator"
  | preset => "time preset"
  | nodeId => "node id"
  | dialect => "dialect"
  | dataType => "type"

inductive Error where
  | unknownClause (id : NodeId)
  | valueNeedsDateTime (id : NodeId) (mode : String) (type : String)
  | missingTableReference
  | unknownName (kind : NameKind) (name : String)
  /-- Date arithmetic left the supported years. -/
  | dateOutOfRange
  deriving DecidableEq

namespace Error

def message : Error → String
  | unknownClause id => s!"no clause with id {id.label}"
  | valueNeedsDateTime id mode type =>
    s!"{mode} values are only allowed on DateTime clauses, clause {id.label} is {type}"
  | missingTableReference => "the CQL dialect needs both a keyspace and a table name"
  | unknownName kind name => s!"unknown {kind.label}: '{name}'"
  | dateOutOfRange => "the date lies outside the supported years"

end Error

def NameKind.require {α : Type} (kind : NameKind) (name : String) : Option α → Except Error α
  | some found => .ok found
  | none => .error (.unknownName kind name)

end WhereEditor
