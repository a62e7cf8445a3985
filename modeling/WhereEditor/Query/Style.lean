import WhereEditor.Tree.Basic

/-!
Writing a tree as a query. A style says how a query begins and how one comparison is written; the
words between the comparisons and the parentheses around them are the same in every style.
-/

namespace WhereEditor

structure Comparison where
  field : String
  type : DataType
  operator : Operator
  value : Resolved

def quoted (text : String) : String := "'" ++ text ++ "'"

structure QueryOptions where
  clock : Clock
  /-- The columns to select; none means all. -/
  columns : List String := []
  keyspace : Option String := none
  table : Option String := none

structure Style where
  head? : QueryOptions → Option String
  comparison : Comparison → String

namespace Style

def writeClause (style : Style) (clock : Clock) (clause : Clause) : Except Error String := do
  let value ← clause.value.resolve clock
  return style.comparison
    { field := clause.field, type := clause.type, operator := clause.operator, value }

def parentheses (count : Nat) (mark : Char) : String := String.ofList (List.replicate count mark)

def phrase (style : Style) (tree : Tree) (clock : Clock) (leading : Bool)
    (entry : NodeId × Clause) : Except Error String := do
  let (id, clause) := entry
  let comparison ← style.writeClause clock clause
  let joiner := if leading then "" else (clause.joiner false).word ++ " "
  return " " ++ joiner ++ parentheses (tree.opening id) '(' ++ comparison ++
    parentheses (tree.closing id) ')'

def phrases (style : Style) (tree : Tree) (clock : Clock) : Except Error (List String) :=
  match tree.clauses with
  | [] => .ok []
  | first :: others => do
      let leading ← style.phrase tree clock true first
      let joined ← others.mapM (style.phrase tree clock false)
      return leading :: joined

def write (style : Style) (tree : Tree) (options : QueryOptions) : Except Error String := do
  let phrases ← style.phrases tree options.clock
  let head := match style.head? options with
    | some head => if phrases.isEmpty then head else head ++ " WHERE"
    | none => ""
  return Text.trimText (head ++ String.join phrases)

end Style

end WhereEditor
