/-!
Comparison operators: one symbol for SQL and CQL, one word for filter expressions, and the
spellings under which each can be typed. Combinators are the words that join a clause to the one
before it.
-/

namespace WhereEditor

inductive Operator where
  | equal
  | greater
  | greaterOrEqual
  | less
  | lessOrEqual
  | notEqual
  deriving DecidableEq, Inhabited

namespace Operator

def all : List Operator := [equal, greater, greaterOrEqual, less, lessOrEqual, notEqual]

def symbol : Operator → String
  | equal => "="
  | greater => ">"
  | greaterOrEqual => ">="
  | less => "<"
  | lessOrEqual => "<="
  | notEqual => "<>"

def word : Operator → String
  | equal => "eq"
  | greater => "gt"
  | greaterOrEqual => "ge"
  | less => "lt"
  | lessOrEqual => "le"
  | notEqual => "ne"

def spellings (operator : Operator) : List String :=
  [operator.symbol, operator.word] ++ match operator with
    | equal => ["=="]
    | notEqual => ["!="]
    | _ => []

def ofText? (text : String) : Option Operator :=
  all.find? fun operator => operator.spellings.contains text.toLower

end Operator

inductive Combinator where
  | none
  | and
  | or
  deriving DecidableEq, Inhabited

namespace Combinator

def all : List Combinator := [none, and, or]

def word : Combinator → String
  | none => ""
  | and => "and"
  | or => "or"

/-- Read without regard to ASCII case; the absent combinator is empty text or `none`. -/
def ofText? (text : String) : Option Combinator :=
  if text.toLower == "none" then some none
  else all.find? fun combinator => combinator.word == text.toLower

end Combinator

end WhereEditor
