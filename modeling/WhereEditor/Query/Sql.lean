import WhereEditor.Query.Style

/-!
SQL over documents in a container `c`. The keys and the timestamp of an entity are members of the
document with names of their own; every other field is an object whose member `$v` holds the value.
Int64 and DateTime values are stored as padded digits, so that they compare as text.
-/

namespace WhereEditor.Sql

/-- An integer in the form in which it is stored. -/
def padded (text : String) : String := Text.padStart 20 '0' text

def column (field : String) : String :=
  if field = Field.partitionKey then "c[\"$pk\"]"
  else if field = Field.rowKey then "c[\"id\"]"
  else if field = Field.timestamp then "c._ts"
  else "c." ++ field

def head (columns : List String) : String :=
  let selected := if columns.isEmpty then "*" else ", ".intercalate (columns.map column)
  "SELECT " ++ selected ++ " FROM c"

/-- A value of a stored property. A DateTime that is no date, or has no ticks, is kept as text. -/
def literal (type : DataType) (value : Resolved) : String :=
  match type with
  | .edm .dateTime => quoted ((value.instant?.bind Instant.ticks?).getD value.text)
  | .edm .int64 => quoted (padded value.text)
  | .edm .string | .edm .guid | .edm .binary => quoted value.text
  | .edm .boolean | .edm .double | .edm .int32 | .cql _ => value.text

def seconds (value : Resolved) : String :=
  match value.instant? with
  | some moment => toString moment.second
  | none => quoted value.text

def comparison (comparison : Comparison) : String :=
  let { field, type, operator, value } := comparison
  let (path, literal) :=
    if field = Field.partitionKey then ("c[\"$pk\"]", quoted value.text)
    else if field = Field.rowKey then ("c.id", quoted value.text)
    else if field = Field.timestamp then ("c._ts", seconds value)
    else ("c." ++ field ++ "[\"$v\"]", literal type value)
  path ++ " " ++ operator.symbol ++ " " ++ literal

def style : Style where
  head? options := some (head options.columns)
  comparison := comparison

end WhereEditor.Sql
