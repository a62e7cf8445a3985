import WhereEditor.Time.Clock
import WhereEditor.Time.DateText

/-!
What a clause compares its field with, and what becomes of it once a clock is given: plain text
stays as it is, a window or the bound of a range becomes a moment.
-/

namespace WhereEditor

inductive Value where
  | literal (text : String)
  | preset (window : Preset)
  /-- A bound of a range, typed in local time or in UTC. -/
  | bound (text : String) (isLocal : Bool)
  deriving DecidableEq

inductive Resolved where
  | literal (text : String)
  | instant (moment : Instant)
  /-- A bound that is no date. -/
  | unparsed (text : String) (isLocal : Bool)
  deriving DecidableEq

namespace Value

def empty : Value := literal ""

def isLiteral : Value → Bool
  | literal _ => true
  | _ => false

def modeName : Value → String
  | literal _ => "literal"
  | preset _ => "time preset"
  | bound _ _ => "custom range"

def resolve (clock : Clock) : Value → Except Error Resolved
  | literal text => .ok (.literal text)
  | preset window => (window.start clock).map .instant
  | bound text isLocal => do
      match ← Time.ofText text (if isLocal then some clock.offset else none) with
      | some moment => pure (.instant moment)
      | none => pure (.unparsed text isLocal)

end Value

namespace Resolved

def text : Resolved → String
  | literal text => text
  | instant moment => moment.iso
  | unparsed text _ => text

def instant? : Resolved → Option Instant
  | literal text => Time.utcOfText? text
  | instant moment => some moment
  | unparsed _ _ => none

end Resolved

end WhereEditor
