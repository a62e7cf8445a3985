import WhereEditor.Error
import WhereEditor.Time.Calendar

/-!
Moments of UTC to the nanosecond. A moment within a leap second carries the second before it and
a billion nanoseconds or more. Shifting by whole seconds can leave the supported years, which is
the one way in which date arithmetic fails.
-/

namespace WhereEditor

structure Instant where
  /-- Whole seconds since 1970-01-01T00:00:00Z, leap seconds not counted. -/
  second : Int
  nano : Nat
  deriving DecidableEq

namespace Instant

def billion : Nat := 1000000000

def secondsPerHour : Int := 3600

def secondsPerDay : Int := 86400

def startOf (date : Date) : Int := date.dayNumber * secondsPerDay

def Supported (second : Int) : Prop :=
  startOf ⟨Calendar.firstYear, 1, 1⟩ ≤ second ∧ second < startOf ⟨Calendar.lastYear + 1, 1, 1⟩

instance (second : Int) : Decidable (Supported second) := inferInstanceAs (Decidable (_ ∧ _))

def inLeapSecond (instant : Instant) : Bool := billion ≤ instant.nano

def date (instant : Instant) : Date := Date.ofDayNumber (instant.second / secondsPerDay)

/-- Adds whole seconds. A step out of a leap second counts that second as the one before it when
it goes forward, and as the one after it when it goes back. -/
def shift (instant : Instant) (amount : Int) : Except Error Instant :=
  if amount = 0 then .ok instant
  else
    let (start, nano) :=
      if instant.inLeapSecond then
        (if amount < 0 then instant.second + 1 else instant.second, instant.nano - billion)
      else (instant.second, instant.nano)
    if Supported (start + amount) then .ok ⟨start + amount, nano⟩ else .error .dateOutOfRange

/-- Milliseconds since 1970; within a leap second they run on into the next second. -/
def milliseconds (instant : Instant) : Int :=
  instant.second * 1000 + (instant.nano / 1000000 : Nat)

def yearText (year : Int) : String :=
  if 0 ≤ year ∧ year ≤ 9999 then Text.zeroPadded 4 year
  else if year < 0 then Text.zeroPadded 5 year
  else "+" ++ Text.zeroPadded 4 year

def iso (instant : Instant) : String :=
  let date := instant.date
  let second := (instant.second % secondsPerDay).toNat
  let two (number : Nat) : String := Text.zeroPadded 2 number
  let leap := instant.nano / billion
  yearText date.year ++ "-" ++ two date.month ++ "-" ++ two date.day ++ "T" ++
    two (second / 3600) ++ ":" ++ two (second / 60 % 60) ++ ":" ++ two (second % 60 + leap) ++ "." ++
    Text.zeroPadded 3 (instant.nano % billion / 1000000 : Nat) ++ "Z"

def Fits64 (number : Int) : Prop :=
  -9223372036854775808 ≤ number ∧ number < 9223372036854775808

instance (number : Int) : Decidable (Fits64 number) := inferInstanceAs (Decidable (_ ∧ _))

/-- Ticks of 100 ns from the year 1 to 1970. -/
def epochTicks : Int := 621355968000000000

/-- Ticks of 100 ns since the year 1, to the millisecond and in 20 characters. Both the ticks since
1970 and those since the year 1 have to fit in 64 bits. -/
def ticks? (instant : Instant) : Option String :=
  let sinceEpoch := instant.milliseconds * 10000
  let ticks := sinceEpoch + epochTicks
  if Fits64 sinceEpoch ∧ Fits64 ticks then some (Text.zeroPadded 20 ticks) else none

end Instant

end WhereEditor
