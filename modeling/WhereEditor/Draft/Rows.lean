import WhereEditor.Draft.Basic
import WhereEditor.Tree.Margin

/-!
The rows in which a draft is shown: one per clause in order, with the brackets of its groups in the
margin.
-/

namespace WhereEditor

structure Row where
  id : NodeId
  combinator : Combinator
  clause : Clause
  groupDepth : Nat
  canChangeCombinator : Bool
  isEditable : Bool
  isTypeEditable : Bool

namespace Row

def valueText : Value → String
  | .literal text => "\"" ++ text ++ "\""
  | .preset window => window.label
  | .bound text isLocal => text ++ (if isLocal then " (local)" else " (utc)")

def render (row : Row) : String :=
  let clause := row.clause
  let field := if clause.field.isEmpty then "?" else clause.field
  Text.padStart 4 ' ' row.id.label ++ " " ++ (if clause.selected then "*" else " ") ++
    Text.padEnd 3 row.combinator.word ++ " " ++ field ++ " " ++ clause.operator.symbol ++ " " ++
    valueText clause.value ++ " : " ++ clause.type.name

end Row

/-- Two characters of the margin: a corner where a group begins or ends, a bar elsewhere. -/
def Cell.render (cell : Cell) : String :=
  if cell.group.isNone then "  "
  else if !cell.hasLine then "─ "
  else if cell.isFirst then "┌ "
  else if cell.hasBottom then "└ "
  else "│ "

namespace Draft

def rowOf (draft : Draft) (leading : Bool) (entry : NodeId × Clause) : Row :=
  let (id, clause) := entry
  { id
    clause
    combinator := clause.joiner leading
    groupDepth := draft.tree.clauseDepth id
    canChangeCombinator := !leading && draft.api != .cassandra
    isEditable := clause.isEditable draft.api draft.settings.schema
    isTypeEditable := clause.isTypeEditable draft.api }

def rows (draft : Draft) : List Row :=
  match draft.tree.clauses with
  | [] => []
  | first :: others => draft.rowOf true first :: others.map (draft.rowOf false)

def margin (draft : Draft) (id : NodeId) : Except Error (List Cell) :=
  if (draft.tree.clause? id).isSome then .ok (draft.tree.margin id) else .error (.unknownClause id)

def renderRow (draft : Draft) (row : Row) : String :=
  String.join ((draft.tree.margin row.id).map Cell.render) ++ row.render

def render (draft : Draft) : String :=
  if draft.rows.isEmpty then "(空)"
  else
    let lines := "\n".intercalate (draft.rows.map draft.renderRow)
    String.ofList (Text.trimEnd lines.toList)

end Draft

end WhereEditor
