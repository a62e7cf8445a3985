import WhereEditor.Query.Cql
import WhereEditor.Query.Filter
import WhereEditor.Query.Sql

/-!
The languages a tree can be written in. CQL needs to know the keyspace and the table.
-/

namespace WhereEditor

inductive Dialect where
  | filter
  | sql
  | cql
  deriving DecidableEq

namespace Dialect

def all : List Dialect := [filter, sql, cql]

def name : Dialect → String
  | filter => "filter"
  | sql => "sql"
  | cql => "cql"

def ofText? (text : String) : Option Dialect :=
  if text.toLower == "odata" then some filter
  else all.find? fun dialect => dialect.name == text.toLower

def forApi : Api → Dialect
  | .tables => filter
  | .cassandra => cql

def style (options : QueryOptions) : Dialect → Except Error Style
  | filter => .ok Filter.style
  | sql => .ok Sql.style
  | cql => match options.keyspace, options.table with
    | some keyspace, some table => .ok (Cql.style keyspace table)
    | _, _ => .error .missingTableReference

end Dialect

def Tree.compile (tree : Tree) (dialect : Dialect) (options : QueryOptions) :
    Except Error String := do
  let style ← dialect.style options
  style.write tree options

end WhereEditor
