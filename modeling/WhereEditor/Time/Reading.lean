import WhereEditor.Text.Character
import WhereEditor.Time.Instant

/-!
What a date text says, number by number, and the moment it denotes. The readers below take a
number, a mark or an offset from the front of a text and hand back the rest.
-/

namespace WhereEditor

structure Reading where
  year : Int := 0
  month : Nat := 1
  day : Nat := 1
  hour : Nat := 0
  minute : Nat := 0
  second : Nat := 0
  /-- Nanoseconds. -/
  fraction : Nat := 0
  /-- Seconds east of UTC, when the text says so. -/
  offset : Option Int := none
  /-- Days since Monday, when the text names the day of the week. -/
  weekday : Option Nat := none

namespace Reading

def date (reading : Reading) : Date := ⟨reading.year, reading.month, reading.day⟩

/-- Every number is in its range and the day of the week, if named, is the right one. Second 60 is
a leap second, in any minute. -/
def Valid (reading : Reading) : Prop :=
  Calendar.firstYear ≤ reading.year ∧ reading.year ≤ Calendar.lastYear ∧ reading.date.Valid ∧
    reading.hour < 24 ∧ reading.minute < 60 ∧ reading.second ≤ 60 ∧
    reading.weekday.all (· == reading.date.weekday) = true

instance (reading : Reading) : Decidable reading.Valid := inferInstanceAs (Decidable (_ ∧ _))

/-- The moment by UTC; a text without an offset is taken as UTC. -/
def instant? (reading : Reading) : Option Instant :=
  let wall := Instant.startOf reading.date + (reading.hour * 3600 + reading.minute * 60 : Nat) +
    (min reading.second 59 : Nat)
  let second := wall - reading.offset.getD 0
  let leap := if reading.second = 60 then Instant.billion else 0
  if reading.Valid ∧ Instant.Supported second then some ⟨second, reading.fraction + leap⟩ else none

end Reading

namespace Time

open Text

def expect? (mark : Char) : List Char → Option (List Char)
  | [] => none
  | character :: rest => if character = mark then some rest else none

def number? (least most : Nat) (text : List Char) : Option (Nat × List Char) :=
  let digits := (text.take most).takeWhile Char.isDigit
  if digits.length < least then none else some (numeral digits, text.drop digits.length)

def longNumber? (least : Nat) (text : List Char) : Option (Nat × List Char) :=
  number? least text.length text

/-- A point and digits, read as nanoseconds; digits beyond the ninth are passed over. Without a
point there is no fraction. -/
def fraction? : List Char → Option (Nat × List Char)
  | '.' :: rest => do
      let (value, beyond) ← number? 1 9 rest
      let count := rest.length - beyond.length
      some (value * Nat.pow 10 (9 - count), beyond.dropWhile Char.isDigit)
  | text => some (0, text)

def year? : List Char → Option (Int × List Char)
  | '-' :: rest => (longNumber? 1 rest).map fun (value, beyond) => (-value, beyond)
  | '+' :: rest => (longNumber? 1 rest).map fun (value, beyond) => (value, beyond)
  | text => (number? 1 4 text).map fun (value, beyond) => (value, beyond)

/-- Hours and minutes of two digits each, with or without a colon between them, in seconds. The
whole is less than a day. -/
def clockOffset? (colon : Bool) (text : List Char) : Option (Int × List Char) := do
  let (hours, rest) ← number? 2 2 text
  let rest ← if colon then expect? ':' rest else some rest
  let (minutes, rest) ← number? 2 2 rest
  if minutes < 60 ∧ hours < 24 then some ((hours * 3600 + minutes * 60 : Nat), rest) else none

end Time

end WhereEditor
