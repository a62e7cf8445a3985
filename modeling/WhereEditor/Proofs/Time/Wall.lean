import WhereEditor.Proofs.Time.Calendar
import WhereEditor.Time.Instant

/-!
What a clock on the wall shows. Main statement: at the moment of a wall time, a clock with the same
offset shows that wall time, whatever the offset.
-/

namespace WhereEditor

structure WallTime where
  date : Date
  hour : Nat
  minute : Nat
  /-- 60 within a leap second. -/
  second : Nat
  nano : Nat

namespace Instant

instance : LE Instant where
  le first second := first.second < second.second ∨
    first.second = second.second ∧ first.nano ≤ second.nano

theorem le_iff {first second : Instant} : first ≤ second ↔ first.second < second.second ∨
    first.second = second.second ∧ first.nano ≤ second.nano :=
  Iff.rfl

/-- What a clock `east` seconds ahead of UTC shows at a moment. -/
def wall (instant : Instant) (east : Int) : WallTime :=
  let second := instant.second + east
  let inDay := (second % secondsPerDay).toNat
  { date := Date.ofDayNumber (second / secondsPerDay)
    hour := inDay / 3600, minute := inDay / 60 % 60
    second := inDay % 60 + instant.nano / billion, nano := instant.nano % billion }

/-! ## Shifts -/

section

variable {instant : Instant} {amount : Int}

theorem shift_of_usual (usual : instant.inLeapSecond = false)
    (within : Supported (instant.second + amount)) :
    instant.shift amount = .ok ⟨instant.second + amount, instant.nano⟩ := by
  rw [shift, usual]
  split
  · rename_i still
    rw [still, Int.add_zero]
  · exact if_pos within

theorem shift_back_of_leap (leap : instant.inLeapSecond = true) (back : amount < 0)
    (within : Supported (instant.second + 1 + amount)) :
    instant.shift amount = .ok ⟨instant.second + 1 + amount, instant.nano - billion⟩ := by
  have moves : amount ≠ 0 := Int.ne_of_lt back
  simp [shift, leap, back, moves, within]

theorem shift_forth_of_leap (leap : instant.inLeapSecond = true) (forth : 0 < amount)
    (within : Supported (instant.second + amount)) :
    instant.shift amount = .ok ⟨instant.second + amount, instant.nano - billion⟩ := by
  have moves : amount ≠ 0 := Int.ne_of_gt forth
  have ahead : ¬ amount < 0 := Int.not_lt.mpr (Int.le_of_lt forth)
  simp [shift, leap, ahead, moves, within]

end

end Instant

/-! ## Clocks -/

namespace WallTime

open Instant

structure Valid (wall : WallTime) : Prop where
  date : wall.date.Valid
  hour : wall.hour < 24
  minute : wall.minute < 60
  second : wall.second ≤ 60
  nano : wall.nano < billion

def midnight (date : Date) : WallTime := ⟨date, 0, 0, 0, 0⟩

def moment (wall : WallTime) (east : Int) : Instant :=
  { second := startOf wall.date + (wall.hour * 3600 + wall.minute * 60 + min wall.second 59 : Nat) - east
    nano := wall.nano + if wall.second = 60 then billion else 0 }

theorem valid_midnight {date : Date} (valid : date.Valid) : (midnight date).Valid :=
  ⟨valid, (by decide : 0 < 24), (by decide : 0 < 60), Nat.zero_le 60, (by decide : 0 < billion)⟩

theorem moment_midnight (date : Date) (east : Int) :
    (midnight date).moment east = ⟨startOf date - east, 0⟩ := by
  simp [moment, midnight]

variable {wall : WallTime}

theorem wholeDays (valid : wall.Valid) (east : Int) :
    ((wall.moment east).second + east) / secondsPerDay = wall.date.dayNumber ∧
      ((wall.moment east).second + east) % secondsPerDay =
        (wall.hour * 3600 + wall.minute * 60 + min wall.second 59 : Nat) := by
  have hour := valid.hour
  have minute := valid.minute
  simp only [moment, startOf, secondsPerDay]
  omega

theorem wall_moment (valid : wall.Valid) (east : Int) : (wall.moment east).wall east = wall := by
  obtain ⟨days, inDay⟩ := wholeDays valid east
  have minute := valid.minute
  have second := valid.second
  have nano := valid.nano
  have leap : (wall.moment east).nano / billion = wall.second - min wall.second 59 ∧
      (wall.moment east).nano % billion = wall.nano := by
    simp only [moment]
    rw [billion] at nano ⊢
    split <;> omega
  obtain ⟨whole, part⟩ := leap
  simp only [Instant.wall, days, inDay, Date.ofDayNumber_dayNumber valid.date, whole, part,
    Int.toNat_natCast]
  cases wall
  simp only [mk.injEq, true_and, and_true] at minute second ⊢
  omega

theorem eq_moment_of_wall_midnight {instant : Instant} {date : Date} {east : Int}
    (shown : instant.wall east = midnight date) : instant = (midnight date).moment east := by
  obtain ⟨second, nano⟩ := instant
  simp only [Instant.wall, midnight, mk.injEq] at shown
  obtain ⟨day, hour, minute, least, part⟩ := shown
  have number := (Date.ofDayNumber_spec ((second + east) / secondsPerDay)).2
  rw [day] at number
  rw [billion] at least part
  rw [moment_midnight, startOf, number]
  rw [secondsPerDay] at hour minute least ⊢
  simp only [Instant.mk.injEq]
  omega

theorem moment_midnight_le_iff {instant : Instant} {date : Date} {east : Int} :
    (midnight date).moment east ≤ instant ↔
      date.dayNumber ≤ (instant.wall east).date.dayNumber := by
  have number := (Date.ofDayNumber_spec ((instant.second + east) / secondsPerDay)).2
  have today : (instant.wall east).date.dayNumber = (instant.second + east) / secondsPerDay := number
  rw [today, moment_midnight, le_iff]
  simp only [startOf, secondsPerDay, Nat.zero_le, and_true]
  constructor
  · rintro (before | same) <;> omega
  · intro reached
    omega

end WallTime

end WhereEditor
