import WhereEditor.Proofs.Time.Wall
import WhereEditor.Time.Clock

/-!
The windows of the calendar. Main statement: the current month and the current year start at the last
local midnight, not after now, that begins a month or a year.
-/

namespace WhereEditor

namespace Clock

open Instant

variable {clock : Clock}

def localDate (clock : Clock) : Date := (clock.now.wall clock.offset).date

structure InRange (clock : Clock) : Prop where
  now : Supported (clock.now.second + clock.offset)
  month : Supported (startOf { clock.localDate with day := 1 } - clock.offset)
  year : Supported (startOf ⟨clock.localDate.year, 1, 1⟩ - clock.offset)

theorem InRange.today_eq (within : clock.InRange) : clock.today = .ok clock.localDate :=
  if_pos within.now

theorem midnight_eq {date : Date} (within : Supported (startOf date - clock.offset)) :
    clock.midnight date = .ok ((WallTime.midnight date).moment clock.offset) := by
  rw [midnight, WallTime.moment_midnight]
  exact shift_of_usual rfl within

theorem valid_localDate (clock : Clock) : clock.localDate.Valid :=
  (Date.ofDayNumber_spec _).1

end Clock

namespace Preset

open WallTime

/-- By local time the current month and the current year start at midnight on their first days, not
after now, and no month and no year starts between these and now. -/
theorem start_calendar {clock : Clock} (within : clock.InRange) :
    ∃ month year, currentMonth.start clock = .ok month ∧ currentYear.start clock = .ok year ∧
      month.wall clock.offset = midnight ⟨clock.localDate.year, clock.localDate.month, 1⟩ ∧
      year.wall clock.offset = midnight ⟨clock.localDate.year, 1, 1⟩ ∧
      year ≤ month ∧ month ≤ clock.now ∧
      ∀ moment date, moment ≤ clock.now → moment.wall clock.offset = midnight date → date.day = 1 →
        moment ≤ month ∧ (date.month = 1 → moment ≤ year) := by
  have valid := clock.valid_localDate
  have first := valid.firstOfMonth
  have january := Date.valid_firstOfYear clock.localDate.year
  have begun := Date.firstOfYear_le_firstOfMonth clock.localDate
  have shownMonth := wall_moment (valid_midnight first) clock.offset
  have shownYear := wall_moment (valid_midnight january) clock.offset
  refine ⟨(midnight { clock.localDate with day := 1 }).moment clock.offset,
    (midnight ⟨clock.localDate.year, 1, 1⟩).moment clock.offset, ?_, ?_, shownMonth, shownYear,
    ?_, ?_, ?_⟩
  · rw [start, within.today_eq]
    exact Clock.midnight_eq within.month
  · rw [start, within.today_eq]
    exact Clock.midnight_eq within.year
  · rw [moment_midnight_le_iff, shownMonth]
    exact begun
  · rw [moment_midnight_le_iff]
    exact Date.firstOfMonth_le valid
  · intro moment date reached shown day
    have others : date.Valid := by
      have same : (moment.wall clock.offset).date = date := by rw [shown]; rfl
      rw [← same]
      exact (Date.ofDayNumber_spec _).1
    rw [eq_moment_of_wall_midnight shown, moment_midnight_le_iff] at reached ⊢
    rw [moment_midnight_le_iff, shownMonth, shownYear]
    refine ⟨Date.firstOfMonth_latest valid others day reached, fun month => ?_⟩
    obtain ⟨year, _, _⟩ := date
    subst month day
    exact Date.firstOfYear_latest valid reached

/-- Two in the morning of 1 January 1970 by UTC, which is still 1969 by a local time five hours
behind. -/
theorem start_calendar_new_year :
    let clock : Clock := ⟨⟨7200, 250000000⟩, -18000⟩
    let month : Instant := ⟨-2660400, 0⟩
    let year : Instant := ⟨-31518000, 0⟩
    clock.InRange ∧ clock.localDate = ⟨1969, 12, 31⟩ ∧
      currentMonth.start clock = .ok month ∧ currentYear.start clock = .ok year ∧
      month.wall clock.offset = midnight ⟨1969, 12, 1⟩ ∧
      year.wall clock.offset = midnight ⟨1969, 1, 1⟩ ∧ year ≤ month ∧ month ≤ clock.now := by
  intro clock month year
  have within : clock.InRange := ⟨by decide, by decide, by decide⟩
  have localDate : clock.localDate = ⟨1969, 12, 31⟩ := by decide
  obtain ⟨begun, begunYear, startsMonth, startsYear, shownMonth, shownYear, least, most, _⟩ :=
    start_calendar within
  rw [localDate] at shownMonth shownYear
  have first : begun = month := (eq_moment_of_wall_midnight shownMonth).trans (by decide)
  have january : begunYear = year := (eq_moment_of_wall_midnight shownYear).trans (by decide)
  subst first january
  exact ⟨within, localDate, startsMonth, startsYear, shownMonth, shownYear, least, most⟩

end Preset

end WhereEditor
