import WhereEditor.Vocabulary.Table

/-!
What is known about the table a query is written for: its kind, its name, its columns and keys.
-/

namespace WhereEditor

structure Column where
  name : String
  /-- The name of a data type, not necessarily one of the table's family. -/
  typeName : String
  deriving DecidableEq

structure Schema where
  columns : List Column := []
  partitionKeys : List String := []
  clusteringKeys : List String := []
  deriving DecidableEq

namespace Schema

/-- The type of the first column of that name, if its type name belongs to the table's family. -/
def typeOf? (schema : Schema) (api : Api) (field : String) : Option DataType :=
  (schema.columns.find? (·.name == field)).bind fun column => DataType.ofName? api column.typeName

def isPartitionKey (schema : Schema) (field : String) : Bool := schema.partitionKeys.contains field

theorem mem_options_of_typeOf? {schema : Schema} {api : Api} {field : String} {type : DataType}
    (found : schema.typeOf? api field = some type) : type ∈ DataType.options api := by
  obtain ⟨column, _, named⟩ := Option.bind_eq_some_iff.mp found
  exact DataType.mem_options_of_ofName? named

end Schema

structure Settings where
  api : Api := .tables
  keyspace : Option String := none
  table : Option String := none
  schema : Schema := {}
  deriving DecidableEq

namespace Settings

def sample : Api → Settings
  | .tables =>
      { api := .tables
        schema.columns :=
          [⟨"PartitionKey", "String"⟩, ⟨"RowKey", "String"⟩, ⟨"Timestamp", "DateTime"⟩,
            ⟨"Name", "String"⟩, ⟨"Count", "Int64"⟩, ⟨"Price", "Double"⟩] }
  | .cassandra =>
      { api := .cassandra
        keyspace := some "store"
        table := some "orders"
        schema :=
          { columns :=
              [⟨"userid", "Text"⟩, ⟨"orderid", "Uuid"⟩, ⟨"total", "Decimal"⟩, ⟨"quantity", "Int"⟩]
            partitionKeys := ["userid"]
            clusteringKeys := ["orderid"] } }

end Settings

end WhereEditor
