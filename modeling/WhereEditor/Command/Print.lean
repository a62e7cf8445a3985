import WhereEditor.Command.Basic

/-!
How a command is typed: its name and its arguments, each text between double quotes, with single
spaces between them.
-/

namespace WhereEditor.Command

def quotedText (text : String) : String := "\"" ++ text ++ "\""

def words : Command → List String
  | add position name => "add" :: (position.map toString).toList ++ (name.map quotedText).toList
  | delete id => ["del", id.label]
  | field id name => ["field", id.label, quotedText name]
  | type id name => ["type", id.label, quotedText name]
  | operator id chosen => ["op", id.label, chosen.symbol]
  | value id text => ["value", id.label, quotedText text]
  | preset id window => ["preset", id.label, window.label]
  | range id start stop isLocal =>
      ["range", id.label, quotedText start, quotedText stop, if isLocal then "local" else "utc"]
  | combinator id joiner => [joiner.word, id.label]
  | select ids => "select" :: ids.map NodeId.label
  | unselect ids => "unselect" :: ids.map NodeId.label
  | group => ["group"]
  | ungroup id => ["ungroup", id.label]
  | list => ["list"]
  | compile dialect columns =>
      "compile" :: (dialect.map Dialect.name).toList ++ columns.map quotedText
  | sample partitionKey rowKey => ["example", quotedText partitionKey, quotedText rowKey]
  | clear => ["clear"]
  | help => ["help"]
  | quit => ["quit"]

def print (command : Command) : String := " ".intercalate command.words

end WhereEditor.Command
