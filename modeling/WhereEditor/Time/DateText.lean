import WhereEditor.Time.Layout
import WhereEditor.Time.Mail

/-!
Dates as users type them: a timestamp or a mail date that carries its own offset, or a plain text
that is read at the local offset, where there is one. Text of any other form is no date.
Main statement: without a local offset, reading never fails.
-/

namespace WhereEditor.Time

def offsetText? (text : List Char) : Option Instant :=
  Layout.stamp.instant? text <|> Mail.instant? text

def plainText? (text : List Char) : Option Instant := Layout.plain.findSome? (·.instant? text)

def utcOfText? (text : String) : Option Instant :=
  let text := Text.trim text.toList
  offsetText? text <|> plainText? text

/-- The moment of a text without an offset, given what it names by UTC. At the very end of the
supported years it can leave them on its way from local time. -/
def fromLocal (offset : Option Int) (naive : Instant) : Except Error Instant :=
  match offset with
  | none => .ok naive
  | some east => naive.shift (-east)

def ofText (text : String) (offset : Option Int) : Except Error (Option Instant) :=
  let text := Text.trim text.toList
  match offsetText? text with
  | some instant => .ok (some instant)
  | none => match plainText? text with
    | some naive => (fromLocal offset naive).map some
    | none => .ok none

theorem ofText_none (text : String) : ofText text none = .ok (utcOfText? text) := by
  rw [ofText, utcOfText?]
  generalize offsetText? (Text.trim text.toList) = withOffset
  generalize plainText? (Text.trim text.toList) = plain
  cases withOffset <;> cases plain <;> rfl

end WhereEditor.Time
