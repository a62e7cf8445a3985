/-!
The two kinds of table a query can be written for, the fields with a meaning of their own in entity
tables, and the data types of fields: `EdmType` in entity tables, `CqlType` in column stores. A type
name is read in the family of the table at hand, without regard to ASCII case, while names of fields
are told apart by case.
-/

namespace WhereEditor

inductive Api where
  | tables
  | cassandra
  deriving DecidableEq, Inhabited

namespace Api

def all : List Api := [tables, cassandra]

/-- The name used in settings files. -/
def name : Api → String
  | tables => "tables"
  | cassandra => "cassandra"

def title : Api → String
  | tables => "Tables"
  | cassandra => "Cassandra"

def ofName? (name : String) : Option Api := all.find? (·.name == name)

end Api

namespace Field

def partitionKey : String := "PartitionKey"

def rowKey : String := "RowKey"

def timestamp : String := "Timestamp"

def isReserved (field : String) : Bool :=
  field == partitionKey || field == rowKey || field == timestamp

end Field

inductive EdmType where
  | string | boolean | binary | dateTime | double | guid | int32 | int64
  deriving DecidableEq

namespace EdmType

def all : List EdmType := [string, boolean, binary, dateTime, double, guid, int32, int64]

def name : EdmType → String
  | string => "String"
  | boolean => "Boolean"
  | binary => "Binary"
  | dateTime => "DateTime"
  | double => "Double"
  | guid => "Guid"
  | int32 => "Int32"
  | int64 => "Int64"

end EdmType

inductive CqlType where
  | text | ascii | bigint | blob | boolean | decimal | double | float | int | uuid | varchar
  | varint | inet | smallint | tinyint
  deriving DecidableEq

namespace CqlType

def all : List CqlType :=
  [text, ascii, bigint, blob, boolean, decimal, double, float, int, uuid, varchar, varint, inet,
    smallint, tinyint]

def name : CqlType → String
  | text => "Text"
  | ascii => "Ascii"
  | bigint => "Bigint"
  | blob => "Blob"
  | boolean => "Boolean"
  | decimal => "Decimal"
  | double => "Double"
  | float => "Float"
  | int => "Int"
  | uuid => "Uuid"
  | varchar => "Varchar"
  | varint => "Varint"
  | inet => "Inet"
  | smallint => "Smallint"
  | tinyint => "Tinyint"

/-- Whether a value of this type is written between quotes. -/
def isTextLike : CqlType → Bool
  | text | inet | ascii | varchar => true
  | _ => false

end CqlType

inductive DataType where
  | edm (type : EdmType)
  | cql (type : CqlType)
  deriving DecidableEq

namespace DataType

def dateTime : DataType := edm .dateTime

def isDateTime (type : DataType) : Bool := type == dateTime

def name : DataType → String
  | edm type => type.name
  | cql type => type.name

def options : Api → List DataType
  | .tables => EdmType.all.map edm
  | .cassandra => CqlType.all.map cql

/-- The type of a field about which nothing else is known. -/
def stringFor : Api → DataType
  | .tables => edm .string
  | .cassandra => cql .text

def ofName? (api : Api) (name : String) : Option DataType :=
  (options api).find? fun type => type.name.toLower == name.toLower

theorem isDateTime_iff {type : DataType} : type.isDateTime = true ↔ type = dateTime := beq_iff_eq

theorem stringFor_mem_options (api : Api) : stringFor api ∈ options api := by
  cases api <;> decide

theorem mem_options_of_ofName? {api : Api} {name : String} {type : DataType}
    (found : ofName? api name = some type) : type ∈ options api :=
  List.mem_of_find?_eq_some found

end DataType

end WhereEditor
