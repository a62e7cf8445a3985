import WhereEditor.Text.Character

/-!
The words of a command line. Blanks separate them; a double quote starts a word that runs to the
next double quote, blanks included, or to the end of the line if there is none.
-/

namespace WhereEditor

/-- A stretch of a line, in bytes of UTF-8. -/
structure Span where
  start : Nat
  stop : Nat
  deriving DecidableEq

inductive Token.Form where
  | word
  | quoted
  | unclosed
  deriving DecidableEq

structure Token where
  form : Token.Form
  /-- The word without its quotes. -/
  text : String
  span : Span
  deriving DecidableEq

namespace Token

/-- Where a scan stands: between words, or in a word that began at `start` and whose characters so
far are known, the last one first. -/
inductive Scan where
  | between
  | inWord (start : Nat) (reversed : List Char)
  | inQuotes (start : Nat) (reversed : List Char)

def finish (form : Form) (start stop : Nat) (reversed : List Char) : Token :=
  ⟨form, String.ofList reversed.reverse, ⟨start, stop⟩⟩

def scan : Scan → Nat → List Char → List Token
  | .between, _, [] => []
  | .inWord start reversed, position, [] => [finish .word start position reversed]
  | .inQuotes start reversed, position, [] => [finish .unclosed start position reversed]
  | .between, position, character :: rest =>
      let after := position + character.utf8Size
      if Text.isBlank character then scan .between after rest
      else if character = '"' then scan (.inQuotes position []) after rest
      else scan (.inWord position [character]) after rest
  | .inWord start reversed, position, character :: rest =>
      let after := position + character.utf8Size
      if Text.isBlank character then finish .word start position reversed :: scan .between after rest
      else if character = '"' then
        finish .word start position reversed :: scan (.inQuotes position []) after rest
      else scan (.inWord start (character :: reversed)) after rest
  | .inQuotes start reversed, position, character :: rest =>
      let after := position + character.utf8Size
      if character = '"' then finish .quoted start after reversed :: scan .between after rest
      else scan (.inQuotes start (character :: reversed)) after rest

def ofLine (line : String) : List Token := scan .between 0 line.toList

end Token

end WhereEditor
