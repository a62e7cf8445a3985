import WhereEditor.Query.Style

/-!
CQL, the language of column-store tables. A table is named by its keyspace and its own name, both
between double quotes, and a double quote within a name is written twice. `readName?` reads such a
name back; the main statement says that it recovers the name and leaves what follows.
-/

namespace WhereEditor.Cql

def escape : List Char → List Char
  | [] => []
  | character :: rest =>
      if character = '"' then '"' :: '"' :: escape rest else character :: escape rest

def quotedName (name : String) : String := String.ofList ('"' :: escape name.toList ++ ['"'])

def readEscaped? : List Char → Option (List Char × List Char)
  | [] => none
  | '"' :: '"' :: rest => (readEscaped? rest).map fun (name, beyond) => ('"' :: name, beyond)
  | '"' :: rest => some ([], rest)
  | character :: rest => (readEscaped? rest).map fun (name, beyond) => (character :: name, beyond)

def readName? : List Char → Option (List Char × List Char)
  | '"' :: rest => readEscaped? rest
  | _ => none

theorem readEscaped?_escape (name rest : List Char) (apart : rest.head? ≠ some '"') :
    readEscaped? (escape name ++ '"' :: rest) = some (name, rest) := by
  induction name with
  | nil =>
      cases rest with
      | nil => simp [escape, readEscaped?]
      | cons next beyond =>
          have differs : next ≠ '"' := fun same => apart (by simp [same])
          simp [escape, readEscaped?, differs]
  | cons character name ih =>
      by_cases quote : character = '"' <;> simp [escape, readEscaped?, quote, ih]

def head (keyspace table : String) (columns : List String) : String :=
  let selected := if columns.isEmpty then "*" else ", ".intercalate columns
  "SELECT " ++ selected ++ " FROM " ++ quotedName keyspace ++ "." ++ quotedName table

def literal (type : DataType) (value : Resolved) : String :=
  match type with
  | .cql type => if type.isTextLike then quoted value.text else value.text
  | .edm _ => value.text

def style (keyspace table : String) : Style where
  head? options := some (head keyspace table options.columns)
  comparison comparison :=
    comparison.field ++ " " ++ comparison.operator.symbol ++ " " ++
      literal comparison.type comparison.value

end WhereEditor.Cql
