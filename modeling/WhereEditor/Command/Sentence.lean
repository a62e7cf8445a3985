import WhereEditor.Command.Basic
import WhereEditor.Command.Token

/-!
From the words of a line to a command. The first word names the command, without regard to ASCII
case; each command says which arguments it takes, and one argument too many is an error.
-/

namespace WhereEditor

inductive Missing where
  | clauseId
  | operator
  | fieldName
  | typeName
  | rangeStart
  | rangeEnd
  | partitionKey
  | rowKey
  | preset
  deriving DecidableEq

def Missing.label : Missing → String
  | clauseId => "clause id"
  | operator => "operator"
  | fieldName => "field name"
  | typeName => "type name"
  | rangeStart => "range start"
  | rangeEnd => "range end"
  | partitionKey => "partition key"
  | rowKey => "row key"
  | preset => "time preset"

inductive SyntaxError where
  | unclosed (span : Span)
  | missing (what : Missing)
  | invalidId (text : String) (span : Span)
  | unknownOperator (text : String) (span : Span)
  | unknownPreset (text : String) (span : Span)
  | unknownZone (text : String) (span : Span)
  | unexpected (text : String) (span : Span)
  | unknownCommand (text : String) (span : Span)
  deriving DecidableEq

namespace SyntaxError

def message : SyntaxError → String
  | unclosed _ => "Unterminated string, missing closing quote"
  | missing what => s!"Expected {what.label}, but reached end of input"
  | invalidId text _ => s!"Invalid clause id: '{text}'"
  | unknownOperator text _ => s!"Unknown operator: '{text}'"
  | unknownPreset text _ => s!"Unknown time preset: '{text}'"
  | unknownZone text _ => s!"Expected 'local' or 'utc', found '{text}'"
  | unexpected text _ => s!"Unexpected argument: '{text}'"
  | unknownCommand text _ => s!"Unknown command: '{text}'"

/-- The part of the line that is at fault; none where the line ends too early. -/
def span? : SyntaxError → Option Span
  | missing _ => none
  | unclosed span | invalidId _ span | unknownOperator _ span | unknownPreset _ span
  | unknownZone _ span | unexpected _ span | unknownCommand _ span => some span

end SyntaxError

abbrev Arguments := StateT (List Token) (Except SyntaxError)

namespace Arguments

def closed (token : Token) : Except SyntaxError Token :=
  if token.form = .unclosed then .error (.unclosed token.span) else .ok token

def next (what : Missing) : Arguments Token
  | [] => .error (.missing what)
  | token :: rest => (closed token).map (·, rest)

def next? : Arguments (Option Token)
  | [] => .ok (none, [])
  | token :: rest => (closed token).map (some ·, rest)

def text (what : Missing) : Arguments String := do
  return (← next what).text

def rest : Arguments (List Token)
  | tokens => (tokens.mapM closed).map (·, [])

def idOf (token : Token) : Except SyntaxError NodeId := do
  let token ← closed token
  match NodeId.ofText? token.text with
  | some id => return id
  | none => throw (.invalidId token.text token.span)

def id : Arguments NodeId
  | [] => .error (.missing .clauseId)
  | token :: rest => (idOf token).map (·, rest)

def ids : Arguments (List NodeId)
  | [] => .error (.missing .clauseId)
  | tokens => (tokens.mapM idOf).map (·, [])

def operator : Arguments Operator := do
  let token ← next .operator
  match Operator.ofText? token.text with
  | some operator => return operator
  | none => throw (.unknownOperator token.text token.span)

/-- A position, if the first argument is a number, and a field, if there is another argument. -/
def placement : Arguments (Option Nat × Option String) := do
  match ← next? with
  | none => return (none, none)
  | some token => match Text.index? token.text.toList with
    | none => return (none, some token.text)
    | some position => return (some position, (← next?).map (·.text))

/-- The name of a window, of as many words as are left. -/
def preset : Arguments Preset := do
  match ← rest with
  | [] => throw (.missing .preset)
  | first :: others =>
      let name := " ".intercalate ((first :: others).map (·.text))
      match Preset.ofText? name with
      | some window => return window
      | none => throw (.unknownPreset name first.span)

def isLocal : Arguments Bool := do
  match ← next? with
  | none => return true
  | some token =>
      if token.text = "local" then return true
      else if token.text = "utc" then return false
      else throw (.unknownZone token.text token.span)

def target : Arguments (Option Dialect × List String) := do
  let columns := (← rest).map (·.text)
  match columns with
  | [] => return (none, [])
  | first :: others => match Dialect.ofText? first with
    | some dialect => return (some dialect, others)
    | none => return (none, columns)

end Arguments

namespace Command

open Arguments

def ofName? (name : String) : Option (Arguments Command) :=
  match name with
  | "add" => some do
      let place ← placement
      return add place.1 place.2
  | "del" | "delete" => some (return delete (← id))
  | "field" => some (return field (← id) (← text .fieldName))
  | "type" => some (return type (← id) (← text .typeName))
  | "op" => some (return operator (← id) (← Arguments.operator))
  | "value" => some (return value (← id) ((← next?).elim "" Token.text))
  | "preset" => some (return preset (← id) (← Arguments.preset))
  | "range" => some (return range (← id) (← text .rangeStart) (← text .rangeEnd) (← isLocal))
  | "and" => some (return combinator (← id) .and)
  | "or" => some (return combinator (← id) .or)
  | "select" => some (return select (← ids))
  | "unselect" => some (return unselect (← ids))
  | "group" => some (return group)
  | "ungroup" => some (return ungroup (← id))
  | "list" | "ls" => some (return list)
  | "compile" => some do
      let wanted ← target
      return compile wanted.1 wanted.2
  | "example" => some (return sample (← text .partitionKey) (← text .rowKey))
  | "clear" => some (return clear)
  | "help" | "?" => some (return help)
  | "quit" | "exit" => some (return quit)
  | _ => none

def ofTokens? : List Token → Except SyntaxError (Option Command)
  | [] => .ok none
  | head :: arguments => match ofName? head.text.toLower with
    | none => .error (.unknownCommand head.text head.span)
    | some reader => do
        let (command, left) ← reader arguments
        match left with
        | [] => return some command
        | extra :: _ => throw (.unexpected extra.text extra.span)

def ofLine? (line : String) : Except SyntaxError (Option Command) := ofTokens? (Token.ofLine line)

end Command

end WhereEditor
