import WhereEditor.Value

/-!
How far date arithmetic reaches. By a clock of the years 1 to 9999 every window has a start, so that
the one value that cannot be resolved is a bound in local time at the very end of the supported
years, for which UTC lies beyond them.
-/

namespace WhereEditor

/-! ## Days -/

namespace Calendar

theorem daysInto_le (year : Int) (month : Nat) : daysInto year month ≤ 366 := by
  have whole : (monthLengths year).sum ≤ 366 := by
    rw [monthLengths]
    cases isLeap year <;> decide
  have parts := congrArg List.sum (List.take_append_drop (month - 1) (monthLengths year))
  rw [List.sum_append] at parts
  rw [daysInto, ← List.sum_eq_foldl]
  omega

theorem yearOf_near (day : Int) :
    400 * day / 146097 + 1 ≤ yearOf day ∧ yearOf day ≤ 400 * day / 146097 + 2 := by
  simp only [yearOf]
  split <;> omega

end Calendar

namespace Instant

open Calendar

theorem supported_iff {second : Int} :
    Supported second ↔ -8334601228800 ≤ second ∧ second < 8210266876800 := Iff.rfl

/-- The year tells the second to within a year or two, which is all that is needed so far from the
ends of the supported years. -/
theorem second_mem {instant : Instant} (early : 0 ≤ instant.date.year)
    (late : instant.date.year ≤ 9999) :
    -70000000000 ≤ instant.second ∧ instant.second ≤ 260000000000 := by
  have near := yearOf_near (instant.second / secondsPerDay + epoch)
  have first : 0 ≤ yearOf _ := early
  have last : yearOf _ ≤ 9999 := late
  rw [secondsPerDay, epoch] at near first last
  omega

theorem startOf_mem {date : Date} (early : -20000 ≤ date.year) (late : date.year ≤ 20000)
    (first : date.day = 1) :
    -1000000000000 ≤ startOf date ∧ startOf date ≤ 1000000000000 := by
  have ahead := daysInto_le date.year date.month
  rw [startOf, Date.dayNumber, first, daysBefore, epoch, secondsPerDay]
  omega

/-- A shift fails where it leaves the supported years; one out of a leap second may go a second
further than it says. -/
theorem exists_shift_eq_ok {instant : Instant} {amount : Int}
    (early : -8334601228800 ≤ instant.second + amount)
    (late : instant.second + amount < 8210266876799) :
    ∃ moved, instant.shift amount = .ok moved := by
  rw [shift]
  split
  · exact ⟨instant, rfl⟩
  · cases instant.inLeapSecond with
    | false =>
        have within : Supported (instant.second + amount) := supported_iff.mpr (by omega)
        exact ⟨_, if_pos within⟩
    | true =>
        have within : Supported ((if amount < 0 then instant.second + 1 else instant.second) +
            amount) := by
          rw [supported_iff]
          split <;> omega
        exact ⟨_, if_pos within⟩

theorem eq_of_shift_eq_error {instant : Instant} {amount : Int} {problem : Error}
    (failed : instant.shift amount = .error problem) : problem = .dateOutOfRange := by
  rw [shift] at failed
  split at failed
  · exact absurd failed (by simp)
  · split at failed
    split at failed
    · exact absurd failed (by simp)
    · exact (Except.error.inj failed).symm

end Instant

/-! ## Windows -/

namespace Clock

structure Ordinary (clock : Clock) : Prop where
  early : 1 ≤ clock.now.date.year
  late : clock.now.date.year ≤ 9999
  behind : -86400 < clock.offset
  ahead : clock.offset < 86400

namespace Ordinary

variable {clock : Clock} (ordinary : clock.Ordinary)
include ordinary

theorem second_mem : -70000000000 ≤ clock.now.second ∧ clock.now.second ≤ 260000000000 :=
  Instant.second_mem (Int.le_trans (by decide) ordinary.early) ordinary.late

theorem exists_today :
    ∃ date, clock.today = .ok date ∧ -20000 ≤ date.year ∧ date.year ≤ 20000 := by
  have near := ordinary.second_mem
  have behind := ordinary.behind
  have ahead := ordinary.ahead
  have within : Instant.Supported (clock.now.second + clock.offset) :=
    Instant.supported_iff.mpr (by omega)
  have close := Calendar.yearOf_near
    ((clock.now.second + clock.offset) / Instant.secondsPerDay + Calendar.epoch)
  refine ⟨_, if_pos within, ?_⟩
  simp only [Date.ofDayNumber]
  rw [Instant.secondsPerDay, Calendar.epoch] at close ⊢
  omega

theorem exists_midnight (date : Date) (early : -20000 ≤ date.year) (late : date.year ≤ 20000)
    (first : date.day = 1) : ∃ moment, clock.midnight date = .ok moment := by
  have near := Instant.startOf_mem early late first
  have behind := ordinary.behind
  have ahead := ordinary.ahead
  exact Instant.exists_shift_eq_ok (by simp only; omega) (by simp only; omega)

theorem exists_shift_now {amount : Int} (back : -31536000 ≤ amount) (past : amount ≤ 0) :
    ∃ moment, clock.now.shift amount = .ok moment := by
  have near := ordinary.second_mem
  exact Instant.exists_shift_eq_ok (by omega) (by omega)

theorem exists_start (window : Preset) : ∃ moment, window.start clock = .ok moment := by
  cases window with
  | lastHour => exact ordinary.exists_shift_now (by decide) (by decide)
  | last24Hours => exact ordinary.exists_shift_now (by decide) (by decide)
  | last7Days => exact ordinary.exists_shift_now (by decide) (by decide)
  | last31Days => exact ordinary.exists_shift_now (by decide) (by decide)
  | last365Days => exact ordinary.exists_shift_now (by decide) (by decide)
  | currentMonth =>
      obtain ⟨today, read, early, late⟩ := ordinary.exists_today
      obtain ⟨moment, begins⟩ := ordinary.exists_midnight { today with day := 1 } early late rfl
      refine ⟨moment, ?_⟩
      rw [Preset.start, read]
      exact begins
  | currentYear =>
      obtain ⟨today, read, early, late⟩ := ordinary.exists_today
      obtain ⟨moment, begins⟩ := ordinary.exists_midnight { today with month := 1, day := 1 } early
        late rfl
      refine ⟨moment, ?_⟩
      rw [Preset.start, read]
      exact begins

end Ordinary

end Clock

/-! ## Bounds -/

namespace Time

/-- A text without an offset of its own that names a moment which, read by a local time that is
`east` seconds ahead of UTC, lies outside the supported years. -/
def Escapes (east : Int) (text : String) : Prop :=
  offsetText? (Text.trim text.toList) = none ∧
    ∃ naive, plainText? (Text.trim text.toList) = some naive ∧
      naive.shift (-east) = .error .dateOutOfRange

theorem ofText_eq_error_iff {text : String} {east : Int} {problem : Error} :
    ofText text (some east) = .error problem ↔
      problem = .dateOutOfRange ∧ Escapes east text := by
  rw [ofText, Escapes]
  cases offsetText? (Text.trim text.toList) with
  | some moment => simp
  | none =>
      cases plainText? (Text.trim text.toList) with
      | none => simp
      | some naive =>
          cases moved : naive.shift (-east) with
          | ok moment => simp [fromLocal, moved, Except.map]
          | error other =>
              cases Instant.eq_of_shift_eq_error moved
              simp [fromLocal, moved, Except.map, eq_comm]

end Time

namespace Value

variable {clock : Clock} {value : Value} {problem : Error}

/-- By an ordinary clock, the one value that cannot be resolved is a bound in local time for which
UTC lies outside the supported years. -/
theorem resolve_eq_error_iff (ordinary : clock.Ordinary) :
    value.resolve clock = .error problem ↔ problem = .dateOutOfRange ∧
      ∃ text, value = .bound text true ∧ Time.Escapes clock.offset text := by
  cases value with
  | literal text => simp [resolve]
  | preset window =>
      obtain ⟨moment, begins⟩ := ordinary.exists_start window
      simp [resolve, begins, Except.map]
  | bound text isLocal =>
      have read : (bound text isLocal).resolve clock = .error problem ↔
          Time.ofText text (if isLocal then some clock.offset else none) = .error problem := by
        rw [resolve]
        cases Time.ofText text (if isLocal then some clock.offset else none) with
        | error other => simp [bind, Except.bind]
        | ok moment => cases moment <;> simp [bind, Except.bind, pure, Except.pure]
      rw [read]
      cases isLocal with
      | false =>
          rw [if_neg (by decide), Time.ofText_none]
          simp
      | true =>
          rw [if_pos rfl, Time.ofText_eq_error_iff]
          simp

end Value

end WhereEditor
