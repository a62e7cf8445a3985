import WhereEditor.Json.Read
import WhereEditor.Settings.Basic

/-!
Settings files. A record is an object of its fields, in which unknown members are passed over and
a field stands at most once, or an array of its fields in order, of which the last may be missing
if they have defaults.
-/

namespace WhereEditor

inductive LoadError where
  | missing
  /-- Not text in UTF-8. -/
  | unreadable
  | malformed

namespace LoadError

def message (path : String) : LoadError → String
  | missing => s!"配置文件不存在: {path}"
  | unreadable => s!"无法读取配置文件 {path}"
  | malformed => s!"无法解析JSON配置文件 {path}"

end LoadError

namespace Json

def text? : Json → Option String
  | string text => text
  | _ => none

def optionalText? : Json → Option (Option String)
  | null => some none
  | value => value.text?.map some

def list? {α : Type} (item? : Json → Option α) : Json → Option (List α)
  | array items => items.mapM item?
  | _ => none

def named (name : String) (members : List (Option String × Json)) : List Json :=
  members.filterMap fun (key, value) => if key = some name then some value else none

def fields? (names : List String) : Json → Option (List (Option Json))
  | array items =>
      if items.length ≤ names.length then
        some (items.map some ++ List.replicate (names.length - items.length) none)
      else none
  | object members =>
      if members.all (·.1.isSome) ∧ ∀ name ∈ names, (named name members).length ≤ 1 then
        some (names.map fun name => (named name members).head?)
      else none
  | _ => none

def field? {α : Type} (default : α) (value? : Json → Option α) : Option Json → Option α
  | none => some default
  | some value => value? value

/-- A name, or an object with the name as its only key and nothing as its value. -/
def api? : Json → Option Api
  | string (some name) => Api.ofName? name
  | object [(some name, null)] => Api.ofName? name
  | _ => none

def column? (value : Json) : Option Column :=
  match value.fields? ["name", "type"] with
  | some [some name, some typeName] => do
      return { name := ← name.text?, typeName := ← typeName.text? }
  | _ => none

def schema? (value : Json) : Option Schema :=
  match value.fields? ["columns", "partition_keys", "clustering_keys"] with
  | some [columns, partitionKeys, clusteringKeys] => do
      return {
        columns := ← field? [] (list? column?) columns
        partitionKeys := ← field? [] (list? text?) partitionKeys
        clusteringKeys := ← field? [] (list? text?) clusteringKeys }
  | _ => none

def settings? (value : Json) : Option Settings :=
  match value.fields? ["api", "keyspace", "table", "schema"] with
  | some [api, keyspace, table, schema] => do
      return {
        api := ← field? .tables api? api
        keyspace := ← field? none optionalText? keyspace
        table := ← field? none optionalText? table
        schema := ← field? {} schema? schema }
  | _ => none

end Json

def Column.toJson (column : Column) : Json :=
  .object [(some "name", .text column.name), (some "type", .text column.typeName)]

def Schema.toJson (schema : Schema) : Json :=
  .object
    [(some "columns", .array (schema.columns.map Column.toJson)),
      (some "partition_keys", .array (schema.partitionKeys.map Json.text)),
      (some "clustering_keys", .array (schema.clusteringKeys.map Json.text))]

namespace Settings

def toJson (settings : Settings) : Json :=
  .object
    [(some "api", .text settings.api.name),
      (some "keyspace", settings.keyspace.elim .null Json.text),
      (some "table", settings.table.elim .null Json.text),
      (some "schema", settings.schema.toJson)]

def render (settings : Settings) : String := settings.toJson.render

def ofText? (text : String) : Option Settings := (Json.ofText? text).bind Json.settings?

def load : Option ByteArray → Except LoadError Settings
  | none => .error .missing
  | some content => match String.fromUTF8? content with
    | none => .error .unreadable
    | some text => match ofText? text with
      | none => .error .malformed
      | some settings => .ok settings

end Settings

end WhereEditor
