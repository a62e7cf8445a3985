/-!
JSON values and how they are written.
-/

namespace WhereEditor

inductive Json where
  | null
  | bool (value : Bool)
  /-- A number as it is spelt. -/
  | number (numeral : String)
  /-- A string; no text where an escape names half of a surrogate pair, which no text can hold. -/
  | string (text : Option String)
  | array (items : List Json)
  /-- Members in the order in which they are written. -/
  | object (members : List (Option String × Json))

namespace Json

def text (text : String) : Json := string (some text)

def hexDigit (value : Nat) : Char := (Nat.toDigits 16 value).headD '0'

def marks : List (Char × Char) :=
  [('"', '"'), ('\\', '\\'), ('\x08', 'b'), ('\x0c', 'f'), ('\n', 'n'), ('\r', 'r'), ('\t', 't')]

def escape (character : Char) : List Char :=
  match marks.lookup character with
  | some mark => ['\\', mark]
  | none =>
      if character.toNat < 0x20 then
        ['\\', 'u', '0', '0', hexDigit (character.toNat / 16), hexDigit (character.toNat % 16)]
      else [character]

def quote (text : String) : String :=
  String.ofList ('"' :: text.toList.flatMap escape ++ ['"'])

/-- A string without text is written as one unpaired half. -/
def quote? (text : Option String) : String := text.elim "\"\\ud800\"" quote

mutual

def render : Json → String
  | null => "null"
  | bool value => if value then "true" else "false"
  | number numeral => numeral
  | string text => quote? text
  | array items => "[" ++ ",".intercalate (renderItems items) ++ "]"
  | object members => "\x7b" ++ ",".intercalate (renderMembers members) ++ "\x7d"

def renderItems : List Json → List String
  | [] => []
  | item :: rest => item.render :: renderItems rest

def renderMembers : List (Option String × Json) → List String
  | [] => []
  | (key, value) :: rest => (quote? key ++ ":" ++ value.render) :: renderMembers rest

end

end Json

end WhereEditor
