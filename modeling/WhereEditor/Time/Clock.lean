import WhereEditor.Time.Instant
import WhereEditor.Vocabulary.Preset

/-!
The clock that a query is written against, and the moments at which the preset windows start:
a fixed time before now, or local midnight at the start of the month or of the year.
-/

namespace WhereEditor

structure Clock where
  now : Instant
  /-- Seconds by which local time is ahead of UTC. -/
  offset : Int

namespace Clock

def today (clock : Clock) : Except Error Date :=
  let second := clock.now.second + clock.offset
  if Instant.Supported second then .ok (Date.ofDayNumber (second / Instant.secondsPerDay))
  else .error .dateOutOfRange

def midnight (clock : Clock) (date : Date) : Except Error Instant :=
  Instant.shift ⟨Instant.startOf date, 0⟩ (-clock.offset)

end Clock

namespace Preset

def start (clock : Clock) : Preset → Except Error Instant
  | lastHour => clock.now.shift (-Instant.secondsPerHour)
  | last24Hours => clock.now.shift (-24 * Instant.secondsPerHour)
  | last7Days => clock.now.shift (-7 * Instant.secondsPerDay)
  | last31Days => clock.now.shift (-31 * Instant.secondsPerDay)
  | last365Days => clock.now.shift (-365 * Instant.secondsPerDay)
  | currentMonth => do
      let today ← clock.today
      clock.midnight { today with day := 1 }
  | currentYear => do
      let today ← clock.today
      clock.midnight { today with month := 1, day := 1 }

end Preset

end WhereEditor
