import WhereEditor.Proofs.Json.Soundness
import WhereEditor.Proofs.Settings.Record

/-!
Settings files that stand for some settings. Main statement: what is written of settings is loaded
again, and so is every other text for the same settings.
-/

namespace WhereEditor

/-! ## What stands for settings -/

namespace Column

def fields (column : Column) : List RecordField :=
  [.required "name" (· = .text column.name), .required "type" (· = .text column.typeName)]

def Stands (column : Column) (value : Json) : Prop := IsRecord column.fields value

end Column

namespace Schema

def fields (schema : Schema) : List RecordField :=
  [.defaulted "columns" [] schema.columns
      (∃ items, · = .array items ∧ List.Forall₂ Column.Stands schema.columns items),
    .defaulted "partition_keys" [] schema.partitionKeys
      (· = .array (schema.partitionKeys.map Json.text)),
    .defaulted "clustering_keys" [] schema.clusteringKeys
      (· = .array (schema.clusteringKeys.map Json.text))]

def Stands (schema : Schema) (value : Json) : Prop := IsRecord schema.fields value

end Schema

namespace Settings

def fields (settings : Settings) : List RecordField :=
  [.defaulted "api" .tables settings.api (· = .text settings.api.name),
    .defaulted "keyspace" none settings.keyspace (· = settings.keyspace.elim .null Json.text),
    .defaulted "table" none settings.table (· = settings.table.elim .null Json.text),
    .defaulted "schema" {} settings.schema settings.schema.Stands]

/-- The values that stand for settings: the members that are written of them in any order, with others
among them in the settings, in the schema and in its columns, or without those that have their
defaults. -/
def Stands (settings : Settings) (value : Json) : Prop := IsRecord settings.fields value

end Settings

/-! ## Reading -/

namespace Json

theorem api?_name (api : Api) : api? (.text api.name) = some api := by
  cases api <;> rfl

theorem optionalText?_elim (name : Option String) :
    optionalText? (name.elim .null Json.text) = some name := by
  cases name <;> rfl

theorem list?_texts (texts : List String) :
    list? text? (.array (texts.map Json.text)) = some texts := by
  refine mapM_eq_pure_of_forall₂ ?_
  rw [List.forall₂_map_left_iff, List.forall₂_same]
  exact fun _ _ => rfl

theorem column?_of_stands {column : Column} {value : Json} (stands : column.Stands value) :
    column? value = some column := by
  obtain ⟨found, fields, answers⟩ := exists_fields stands (by decide : ["name", "type"].Nodup)
  cases answers with | cons name rest =>
  cases rest with | cons typeName rest =>
  cases rest
  obtain ⟨_, rfl, rfl⟩ := exists_of_required name
  obtain ⟨_, rfl, rfl⟩ := exists_of_required typeName
  change value.fields? ["name", "type"] = _ at fields
  rw [column?, fields]
  rfl

theorem columns_of_stand {columns : List Column} {value : Json}
    (stand : ∃ items, value = .array items ∧ List.Forall₂ Column.Stands columns items) :
    list? column? value = some columns := by
  obtain ⟨items, rfl, each⟩ := stand
  exact mapM_eq_pure_of_forall₂ (each.imp fun _ _ => column?_of_stands).flip

theorem schema?_of_stands {schema : Schema} {value : Json} (stands : schema.Stands value) :
    schema? value = some schema := by
  obtain ⟨found, fields, answers⟩ := exists_fields stands
    (by decide : ["columns", "partition_keys", "clustering_keys"].Nodup)
  cases answers with | cons columns rest =>
  cases rest with | cons partitionKeys rest =>
  cases rest with | cons clusteringKeys rest =>
  cases rest
  change value.fields? ["columns", "partition_keys", "clustering_keys"] = _ at fields
  have first := field?_of_answers columns fun _ => columns_of_stand
  have second : field? [] (list? text?) _ = some schema.partitionKeys :=
    field?_of_answers partitionKeys fun _ same => same ▸ list?_texts schema.partitionKeys
  have third : field? [] (list? text?) _ = some schema.clusteringKeys :=
    field?_of_answers clusteringKeys fun _ same => same ▸ list?_texts schema.clusteringKeys
  simp only [schema?, fields, first, second, third]
  rfl

theorem settings?_of_stands {settings : Settings} {value : Json} (stands : settings.Stands value) :
    settings? value = some settings := by
  obtain ⟨found, fields, answers⟩ := exists_fields stands
    (by decide : ["api", "keyspace", "table", "schema"].Nodup)
  cases answers with | cons api rest =>
  cases rest with | cons keyspace rest =>
  cases rest with | cons table rest =>
  cases rest with | cons schema rest =>
  cases rest
  change value.fields? ["api", "keyspace", "table", "schema"] = _ at fields
  have first : field? .tables api? _ = some settings.api :=
    field?_of_answers api fun _ same => same ▸ api?_name settings.api
  have second : field? none optionalText? _ = some settings.keyspace :=
    field?_of_answers keyspace fun _ same => same ▸ optionalText?_elim settings.keyspace
  have third : field? none optionalText? _ = some settings.table :=
    field?_of_answers table fun _ same => same ▸ optionalText?_elim settings.table
  have fourth := field?_of_answers schema fun _ => schema?_of_stands
  simp only [settings?, fields, first, second, third, fourth]
  rfl

end Json

/-! ## Writing -/

theorem IsRecord.of_fills {fields : List RecordField} {members : List (Option String × Json)}
    (fills : Fills fields members) : IsRecord fields (.object members) := by
  have order : members.Perm (members ++ []) := by rw [List.append_nil]
  exact .object fills (fun _ member => absurd member List.not_mem_nil) order

theorem IsRecord.of_other {fields : List RecordField} {name : String} {value : Json}
    {known members : List (Option String × Json)} (fills : Fills fields known)
    (strange : name ∉ fields.map RecordField.name)
    (order : members.Perm (known ++ [(some name, value)])) : IsRecord fields (.object members) := by
  refine .object fills (fun other member => ?_) order
  obtain rfl := List.mem_singleton.mp member
  exact ⟨name, rfl, strange⟩

theorem Column.stands_toJson (column : Column) : column.Stands column.toJson :=
  .of_fills (.given rfl (.given rfl .nil))

theorem Schema.stands_toJson (schema : Schema) : schema.Stands schema.toJson := by
  have columns : List.Forall₂ Column.Stands schema.columns (schema.columns.map Column.toJson) := by
    rw [List.forall₂_map_right_iff, List.forall₂_same]
    exact fun column _ => column.stands_toJson
  exact .of_fills (.given ⟨_, rfl, columns⟩ (.given rfl (.given rfl .nil)))

theorem Settings.stands_toJson (settings : Settings) : settings.Stands settings.toJson :=
  .of_fills (.given rfl (.given rfl (.given rfl (.given settings.schema.stands_toJson .nil))))

namespace Json

theorem spells_optionalText (name : Option String) :
    Spells (.value (name.elim .null Json.text)) (name.elim .null Json.text).render.toList := by
  cases name with
  | none => exact .null
  | some name => exact spells_text name

theorem spells_texts (texts : List String) :
    Spells (.value (.array (texts.map Json.text))) (Json.array (texts.map Json.text)).render.toList := by
  refine spells_array fun item member => ?_
  obtain ⟨text, _, rfl⟩ := List.mem_map.mp member
  exact spells_text text

theorem spells_column (column : Column) :
    Spells (.value column.toJson) column.toJson.render.toList := by
  refine spells_object [("name", .text column.name), ("type", .text column.typeName)] ?_
  simp [spells_text]

theorem spells_schema (schema : Schema) :
    Spells (.value schema.toJson) schema.toJson.render.toList := by
  have columns : Spells (.value (.array (schema.columns.map Column.toJson)))
      (Json.array (schema.columns.map Column.toJson)).render.toList := by
    refine spells_array fun item member => ?_
    obtain ⟨column, _, rfl⟩ := List.mem_map.mp member
    exact spells_column column
  refine spells_object [("columns", .array (schema.columns.map Column.toJson)),
    ("partition_keys", .array (schema.partitionKeys.map Json.text)),
    ("clustering_keys", .array (schema.clusteringKeys.map Json.text))] ?_
  simp [columns, spells_texts]

theorem spells_settings (settings : Settings) :
    Spells (.value settings.toJson) settings.toJson.render.toList := by
  refine spells_object [("api", .text settings.api.name),
    ("keyspace", settings.keyspace.elim .null Json.text),
    ("table", settings.table.elim .null Json.text), ("schema", settings.schema.toJson)] ?_
  simp [spells_text, spells_optionalText, spells_schema]

end Json

namespace Settings

theorem load_text (text : String) {settings : Settings} (read : ofText? text = some settings) :
    load (some text.toUTF8) = .ok settings := by
  have decoded : String.fromUTF8? text.toUTF8 = some text := dif_pos text.isValidUTF8
  simp only [load, decoded, read]

theorem load_of_stands {settings : Settings} {value : Json} {text : String}
    (stands : settings.Stands value) (spells : Json.Spells (.slot value) text.toList) :
    load (some text.toUTF8) = .ok settings := by
  refine load_text text ?_
  rw [ofText?, Json.ofText?_of_spells spells, Option.bind_some, Json.settings?_of_stands stands]

theorem exists_spells_of_load {settings : Settings} {content : ByteArray}
    (loaded : load (some content) = .ok settings) :
    ∃ value text, content = String.toUTF8 text ∧ Json.Spells (.slot value) text.toList ∧
      Json.settings? value = some settings := by
  simp only [load] at loaded
  split at loaded
  · cases loaded
  · rename_i text decoded
    split at loaded
    · cases loaded
    · rename_i found read
      cases loaded
      obtain ⟨value, spelt, fields⟩ := Option.bind_eq_some_iff.mp read
      refine ⟨value, text, ?_, Json.ofText?_eq_some_iff.mp spelt, fields⟩
      obtain ⟨valid, same⟩ := Option.dite_none_right_eq_some.mp decoded
      cases same
      rfl

/-- Settings are loaded as they were written, and so they are from every text that stands for them:
blanks anywhere, strings written in any way, members in any order, unknown members and missing
defaults. Nothing is loaded that is not JSON. -/
theorem load_render (settings : Settings) :
    load (some settings.render.toUTF8) = .ok settings ∧
      (∀ (value : Json) (text : String), settings.Stands value →
        Json.Spells (.slot value) text.toList → load (some text.toUTF8) = .ok settings) ∧
      ∀ content, load (some content) = .ok settings →
        ∃ value text, content = String.toUTF8 text ∧ Json.Spells (.slot value) text.toList ∧
          Json.settings? value = some settings :=
  ⟨load_of_stands settings.stands_toJson (Json.spells_settings settings).bare,
    fun _ _ => load_of_stands, fun _ => exists_spells_of_load⟩

theorem load_render_rearranged :
    let settings : Settings := { schema.columns := [⟨"n", "Int"⟩] }
    let text := "\x7b\"x\":true,\"schema\":\x7b\"columns\":[\x7b\"type\":\"Int\",\"y\":[null]," ++
      "\"name\":\"n\"\x7d],\"z\":\x7b\x7d\x7d\x7d"
    (∃ value, settings.Stands value ∧ Json.Spells (.slot value) text.toList) ∧
      load (some text.toUTF8) = .ok settings := by
  intro settings text
  let column : Json := .object
    [(some "type", .text "Int"), (some "y", .array [.null]), (some "name", .text "n")]
  let schema : Json := .object [(some "columns", .array [column]), (some "z", .object [])]
  let value : Json := .object [(some "x", .bool true), (some "schema", schema)]
  have isColumn : Column.Stands ⟨"n", "Int"⟩ column :=
    .of_other (.given rfl (.given rfl .nil)) (by decide : "y" ∉ ["name", "type"])
      (@List.perm_append_comm _ [_, _] [_])
  have isSchema : settings.schema.Stands schema :=
    .of_other (.given ⟨_, rfl, .cons isColumn .nil⟩ (.omitted rfl (.omitted rfl .nil)))
      (by decide : "z" ∉ ["columns", "partition_keys", "clustering_keys"]) (.refl _)
  have stands : settings.Stands value :=
    .of_other (.omitted rfl (.omitted rfl (.omitted rfl (.given isSchema .nil))))
      (by decide : "x" ∉ ["api", "keyspace", "table", "schema"])
      (@List.perm_append_comm _ [_] [_])
  have isNull : Json.Spells (.value (.array [.null])) (Json.array [.null]).render.toList :=
    Json.spells_array (by simpa using .null)
  have none : Json.Spells (.value (.object [])) (Json.object []).render.toList :=
    Json.spells_object [] (by simp)
  have spellsColumn : Json.Spells (.value column) column.render.toList :=
    Json.spells_object [("type", .text "Int"), ("y", .array [.null]), ("name", .text "n")]
      (by simp [Json.spells_text, isNull])
  have columns : Json.Spells (.value (.array [column])) (Json.array [column]).render.toList :=
    Json.spells_array (by simp [spellsColumn])
  have spellsSchema : Json.Spells (.value schema) schema.render.toList :=
    Json.spells_object [("columns", .array [column]), ("z", .object [])] (by simp [columns, none])
  have written : value.render = text := by decide +kernel
  have spells : Json.Spells (.slot value) text.toList := by
    rw [← written]
    exact (Json.spells_object [("x", .bool true), ("schema", schema)]
      (by simpa [spellsSchema] using .yes)).bare
  exact ⟨⟨value, stands, spells⟩, (load_render settings).2.1 value text stands spells⟩

end Settings

end WhereEditor
