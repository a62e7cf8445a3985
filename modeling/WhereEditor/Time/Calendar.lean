/-!
The proleptic Gregorian calendar: dates and their day numbers, where day 0 is 1 January 1970.
A day number finds its year by a linear guess that is short by at most one year.
-/

namespace WhereEditor

structure Date where
  year : Int
  month : Nat
  day : Nat
  deriving DecidableEq

namespace Calendar

def isLeap (year : Int) : Bool := year % 4 == 0 && (year % 100 != 0 || year % 400 == 0)

def monthLengths (year : Int) : List Nat :=
  [31, if isLeap year then 29 else 28, 31, 30, 31, 30, 31, 31, 30, 31, 30, 31]

/-- The number of 1 January 1970 when 1 January of the year 1 is day 0. -/
def epoch : Int := 719162

def daysBefore (year : Int) : Int :=
  let past := year - 1
  365 * past + past / 4 - past / 100 + past / 400

def yearOf (day : Int) : Int :=
  let guess := 400 * day / 146097 + 1
  if daysBefore (guess + 1) ≤ day then guess + 1 else guess

/-- The month and the day of the month of a day counted from the first of `month`. -/
def locate (month : Nat) : List Nat → Nat → Nat × Nat
  | [], ahead => (month, ahead + 1)
  | length :: later, ahead =>
      if ahead < length then (month, ahead + 1) else locate (month + 1) later (ahead - length)

def daysInto (year : Int) (month : Nat) : Nat :=
  ((monthLengths year).take (month - 1)).foldl (· + ·) 0

def firstYear : Int := -262143

def lastYear : Int := 262142

end Calendar

namespace Date

open Calendar

def Valid (date : Date) : Prop :=
  1 ≤ date.month ∧ date.month ≤ 12 ∧ 1 ≤ date.day ∧
    date.day ≤ (monthLengths date.year).getD (date.month - 1) 0

instance (date : Date) : Decidable date.Valid := inferInstanceAs (Decidable (_ ∧ _))

def dayNumber (date : Date) : Int :=
  daysBefore date.year + daysInto date.year date.month + date.day - 1 - epoch

def ofDayNumber (number : Int) : Date :=
  let day := number + epoch
  let year := yearOf day
  let (month, dayOfMonth) := locate 1 (monthLengths year) (day - daysBefore year).toNat
  ⟨year, month, dayOfMonth⟩

/-- Days since Monday. -/
def weekday (date : Date) : Nat := ((date.dayNumber + 3) % 7).toNat

end Date

end WhereEditor
