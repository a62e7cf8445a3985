import Mathlib.Algebra.Ring.Nat
import WhereEditor.Proofs.Support
import WhereEditor.Time.Calendar

/-!
Day numbers and dates. Main statements: every day number, also one before 1970 or before the year 0, is
that of the date that is found for it, which is a valid one; and a valid date is the one that is found
for its day number, so that day numbers tell dates apart.
-/

namespace WhereEditor

namespace Calendar

/-! ## Years -/

/-- The linear guess is not beyond the year, and short of it by at most one. -/
theorem daysBefore_guess (day : Int) :
    daysBefore (400 * day / 146097 + 1) ≤ day ∧ day < daysBefore (400 * day / 146097 + 3) := by
  simp only [daysBefore]
  omega

theorem daysBefore_yearOf (day : Int) :
    daysBefore (yearOf day) ≤ day ∧ day < daysBefore (yearOf day + 1) := by
  obtain ⟨least, bound⟩ := daysBefore_guess day
  simp only [yearOf]
  split
  · rename_i reached
    exact ⟨reached, by rwa [Int.add_assoc, Int.add_assoc]⟩
  · rename_i short
    exact ⟨least, Int.not_le.mp short⟩

theorem daysBefore_mono {year later : Int} (earlier : year ≤ later) :
    daysBefore year ≤ daysBefore later := by
  simp only [daysBefore]
  omega

theorem yearOf_eq {year day : Int} (least : daysBefore year ≤ day)
    (bound : day < daysBefore (year + 1)) : yearOf day = year := by
  obtain ⟨begun, ends⟩ := daysBefore_yearOf day
  rcases Int.lt_trichotomy (yearOf day) year with before | same | after
  · have passed := daysBefore_mono (Int.add_one_le_of_lt before)
    omega
  · exact same
  · have ahead := daysBefore_mono (Int.add_one_le_of_lt after)
    omega

theorem isLeap_iff {year : Int} :
    isLeap year = true ↔ year % 4 = 0 ∧ (year % 100 ≠ 0 ∨ year % 400 = 0) := by
  simp [isLeap]

theorem sum_monthLengths (year : Int) :
    ((monthLengths year).sum : Int) = daysBefore (year + 1) - daysBefore year := by
  rw [monthLengths, daysBefore, daysBefore]
  cases leap : isLeap year with
  | false =>
      have uneven : ¬ (year % 4 = 0 ∧ (year % 100 ≠ 0 ∨ year % 400 = 0)) := by
        rw [← isLeap_iff, leap]
        exact Bool.false_ne_true
      simp only [Bool.false_eq_true, if_false, List.sum_cons, List.sum_nil]
      omega
  | true =>
      have even := isLeap_iff.mp leap
      simp only [if_true, List.sum_cons, List.sum_nil]
      omega

/-! ## Months -/

/-- Where a day falls: the months before it and the day of its month make up the days that are
ahead. -/
theorem locate_spec {lengths : List Nat} {ahead : Nat} (inside : ahead < lengths.sum) (month : Nat) :
    ∃ index dayOfMonth, locate month lengths ahead = (month + index, dayOfMonth) ∧
      index < lengths.length ∧ 1 ≤ dayOfMonth ∧ dayOfMonth ≤ lengths.getD index 0 ∧
      (lengths.take index).sum + dayOfMonth = ahead + 1 := by
  induction lengths generalizing month ahead with
  | nil => exact absurd inside (Nat.not_lt_zero ahead)
  | cons length later ih =>
      rw [List.sum_cons] at inside
      rw [locate]
      split
      · rename_i here
        exact ⟨0, ahead + 1, rfl, Nat.succ_pos _, Nat.succ_pos _, here, Nat.zero_add _⟩
      · rename_i beyond
        obtain ⟨index, dayOfMonth, there, place, least, most, total⟩ :=
          ih (by omega : ahead - length < later.sum) (month + 1)
        refine ⟨index + 1, dayOfMonth, ?_, Nat.succ_lt_succ place, least, most, ?_⟩
        · rw [there, Nat.add_right_comm, Nat.add_assoc]
        · rw [List.take_succ_cons, List.sum_cons]
          omega

theorem locate_eq {lengths : List Nat} {index dayOfMonth : Nat} (first : 1 ≤ dayOfMonth)
    (last : dayOfMonth ≤ lengths.getD index 0) (month : Nat) :
    locate month lengths ((lengths.take index).sum + dayOfMonth - 1) =
      (month + index, dayOfMonth) := by
  induction lengths generalizing index month with
  | nil => exact absurd (Nat.le_trans first last) (by simp)
  | cons length later ih =>
      rw [locate]
      cases index with
      | zero =>
          have here : dayOfMonth ≤ length := last
          rw [List.take_zero, List.sum_nil, if_pos (by omega)]
          exact congrArg (month, ·) (by omega)
      | succ index =>
          have there := ih last (month + 1)
          have ahead : length + (later.take index).sum + dayOfMonth - 1 - length =
              (later.take index).sum + dayOfMonth - 1 := by
            omega
          rw [List.take_succ_cons, List.sum_cons, if_neg (by omega), ahead, there]
          exact congrArg (·, dayOfMonth) (by omega)

theorem monthLength_le (year : Int) (index : Nat) : (monthLengths year).getD index 0 ≤ 31 := by
  have each : ∀ length ∈ monthLengths year, length ≤ 31 := by
    rw [monthLengths]
    cases isLeap year <;> decide
  rw [List.getD_eq_getElem?_getD]
  cases found : (monthLengths year)[index]? with
  | none => exact Nat.zero_le 31
  | some length => exact each length (List.mem_of_getElem? found)

end Calendar

namespace Date

open Calendar

theorem ofDayNumber_spec (number : Int) :
    (ofDayNumber number).Valid ∧ (ofDayNumber number).dayNumber = number := by
  obtain ⟨least, bound⟩ := daysBefore_yearOf (number + epoch)
  have whole := sum_monthLengths (yearOf (number + epoch))
  have inside : (number + epoch - daysBefore (yearOf (number + epoch))).toNat <
      (monthLengths (yearOf (number + epoch))).sum := by
    omega
  obtain ⟨index, dayOfMonth, there, place, first, last, total⟩ := locate_spec inside 1
  have date : ofDayNumber number = ⟨yearOf (number + epoch), 1 + index, dayOfMonth⟩ := by
    simp only [ofDayNumber, there]
  have months : (monthLengths (yearOf (number + epoch))).length = 12 := rfl
  have before : 1 + index - 1 = index := Nat.add_sub_cancel_left 1 index
  rw [date]
  have year : 1 + index ≤ 12 := by omega
  refine ⟨⟨Nat.le_add_right 1 index, year, first, ?_⟩, ?_⟩
  · simpa only [before] using last
  · rw [dayNumber, daysInto]
    simp only [before]
    rw [← List.sum_eq_foldl]
    omega

theorem daysBefore_le_dayNumber {date : Date} (valid : date.Valid) :
    daysBefore date.year ≤ date.dayNumber + epoch ∧
      date.dayNumber + epoch < daysBefore (date.year + 1) := by
  obtain ⟨_, _, first, last⟩ := valid
  have whole := sum_monthLengths date.year
  have inside := sum_take_add_le first last
  rw [dayNumber, daysInto, ← List.sum_eq_foldl]
  omega

theorem ofDayNumber_dayNumber {date : Date} (valid : date.Valid) :
    ofDayNumber date.dayNumber = date := by
  obtain ⟨least, bound⟩ := daysBefore_le_dayNumber valid
  obtain ⟨firstMonth, _, first, last⟩ := valid
  have ahead : (date.dayNumber + epoch - daysBefore date.year).toNat =
      ((monthLengths date.year).take (date.month - 1)).sum + date.day - 1 := by
    rw [dayNumber, daysInto, ← List.sum_eq_foldl]
    omega
  have month : 1 + (date.month - 1) = date.month := by omega
  simp only [ofDayNumber, yearOf_eq least bound, ahead, locate_eq first last, month]

theorem eq_of_dayNumber {date other : Date} (valid : date.Valid) (others : other.Valid)
    (same : date.dayNumber = other.dayNumber) : date = other := by
  rw [← ofDayNumber_dayNumber valid, same, ofDayNumber_dayNumber others]

/-! ## The first day of a month and of a year -/

theorem Valid.firstOfMonth {date : Date} (valid : date.Valid) :
    ({ date with day := 1 } : Date).Valid := by
  obtain ⟨firstMonth, lastMonth, first, last⟩ := valid
  exact ⟨firstMonth, lastMonth, Nat.le_refl 1, Nat.le_trans first last⟩

theorem valid_firstOfYear (year : Int) : (⟨year, 1, 1⟩ : Date).Valid :=
  ⟨Nat.le_refl 1, (by decide : 1 ≤ 12), Nat.le_refl 1, by simp [monthLengths]⟩

theorem dayNumber_firstOfMonth (date : Date) :
    ({ date with day := 1 } : Date).dayNumber = date.dayNumber - date.day + 1 := by
  simp only [dayNumber]
  omega

theorem firstOfMonth_le {date : Date} (valid : date.Valid) :
    ({ date with day := 1 } : Date).dayNumber ≤ date.dayNumber := by
  have first := valid.2.2.1
  rw [dayNumber_firstOfMonth]
  omega

theorem dayNumber_firstOfYear (year : Int) :
    (⟨year, 1, 1⟩ : Date).dayNumber = daysBefore year - epoch := by
  simp [dayNumber, daysInto]

theorem firstOfYear_le_firstOfMonth (date : Date) :
    (⟨date.year, 1, 1⟩ : Date).dayNumber ≤ ({ date with day := 1 } : Date).dayNumber := by
  rw [dayNumber_firstOfYear]
  simp only [dayNumber]
  omega

/-- The last first of a month that is not after a date is that of its own month. -/
theorem firstOfMonth_latest {date first : Date} (valid : date.Valid) (begins : first.Valid)
    (day : first.day = 1) (reached : first.dayNumber ≤ date.dayNumber) :
    first.dayNumber ≤ ({ date with day := 1 } : Date).dayNumber := by
  by_contra later
  have start := dayNumber_firstOfMonth date
  obtain ⟨ahead, distance⟩ : ∃ ahead : Nat, first.dayNumber =
      ({ date with day := 1 } : Date).dayNumber + ahead :=
    ⟨(first.dayNumber - ({ date with day := 1 } : Date).dayNumber).toNat, by omega⟩
  -- It would be a day of the same month other than its first.
  have within : ({ date with day := 1 + ahead } : Date).Valid := by
    obtain ⟨firstMonth, lastMonth, _, last⟩ := valid
    have earlier : 1 + ahead ≤ date.day := by omega
    exact ⟨firstMonth, lastMonth, Nat.le_add_right 1 ahead, Nat.le_trans earlier last⟩
  have same : first = { date with day := 1 + ahead } := by
    refine eq_of_dayNumber begins within ?_
    rw [distance]
    simp only [dayNumber]
    omega
  rw [same] at day
  have none : ahead = 0 := Nat.add_eq_left.mp day
  omega

theorem firstOfYear_latest {date : Date} {year : Int} (valid : date.Valid)
    (reached : (⟨year, 1, 1⟩ : Date).dayNumber ≤ date.dayNumber) :
    (⟨year, 1, 1⟩ : Date).dayNumber ≤ (⟨date.year, 1, 1⟩ : Date).dayNumber := by
  obtain ⟨_, bound⟩ := daysBefore_le_dayNumber valid
  rw [dayNumber_firstOfYear] at reached ⊢
  rw [dayNumber_firstOfYear]
  have notLater : ¬ date.year + 1 ≤ year := by
    intro later
    have beyond := daysBefore_mono later
    omega
  have earlier := daysBefore_mono (Int.lt_add_one_iff.mp (Int.not_le.mp notLater))
  omega

end Date

end WhereEditor
