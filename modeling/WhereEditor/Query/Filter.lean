import WhereEditor.Query.Style

/-!
Filter expressions of the entity data model: a bare condition with operators spelt as words.
-/

namespace WhereEditor.Filter

/-- A DateTime literal; text that is written as one already passes unchanged. A bound that is no
date is kept as typed, with the mark of UTC if it was typed for UTC. -/
def dateTime : Resolved → String
  | .literal text =>
      if text.startsWith "datetime'" then text
      else "datetime" ++ quoted ((Time.utcOfText? text).elim text Instant.iso)
  | .instant moment => "datetime" ++ quoted moment.iso
  | .unparsed text isLocal => "datetime" ++ quoted (if isLocal then text else text ++ "Z")

def literal (type : DataType) (value : Resolved) : String :=
  match type with
  | .edm .dateTime => dateTime value
  | .edm .string => quoted value.text
  | .edm .guid => "guid" ++ quoted value.text
  | .edm .binary => "binary" ++ quoted value.text
  | .edm .boolean | .edm .double | .edm .int32 | .edm .int64 | .cql _ => value.text

def style : Style where
  head? _ := none
  comparison comparison :=
    comparison.field ++ " " ++ comparison.operator.word ++ " " ++
      literal comparison.type comparison.value

end WhereEditor.Filter
