import WhereEditor.Proofs.Support
import WhereEditor.Proofs.Time.Stamp
import WhereEditor.Value

/-!
What kind of moments texts and windows give. Main statement: by a clock that shows a proper moment, every
value that has a moment has a proper one.
-/

namespace WhereEditor

open Text

/-! ## Readings -/

structure Reading.Regular (reading : Reading) : Prop where
  fraction : reading.fraction < Instant.billion
  offset : reading.offset.getD 0 % 60 = 0

theorem Reading.Regular.proper {reading : Reading} {moment : Instant} (regular : reading.Regular)
    (read : reading.instant? = some moment) : moment.Proper := by
  have fraction := regular.fraction
  have offset := regular.offset
  rw [Reading.instant?] at read
  simp only [Option.ite_none_right_eq_some, Option.some.injEq] at read
  obtain ⟨_, rfl⟩ := read
  rw [Instant.billion] at fraction
  constructor
  · simp only [Instant.billion]
    split <;> omega
  · intro leap
    have reached : Instant.billion ≤
        reading.fraction + if reading.second = 60 then Instant.billion else 0 :=
      of_decide_eq_true leap
    have last : reading.second = 60 := by
      rw [Instant.billion] at reached
      split at reached <;> omega
    simp only [Instant.startOf, Instant.secondsPerDay, last]
    omega

namespace Time

theorem exists_digits_of_number? {least most value : Nat} {text rest : List Char}
    (read : number? least most text = some (value, rest)) :
    ∃ digits, text = digits ++ rest ∧ Spells digits.length value digits ∧ digits.length ≤ most := by
  simp only [number?, Option.ite_none_left_eq_some, Option.some.injEq, Prod.mk.injEq] at read
  obtain ⟨_, rfl, rfl⟩ := read
  have front : (text.take most).takeWhile Char.isDigit <+: text :=
    (List.takeWhile_prefix _).trans (List.take_prefix most text)
  refine ⟨_, (List.prefix_iff_eq_append.mp front).symm, ⟨rfl, fun digit member => ?_, rfl⟩, ?_⟩
  · exact List.all_eq_true.mp List.all_takeWhile digit member
  · exact Nat.le_trans (List.takeWhile_prefix _).length_le (List.length_take_le most text)

theorem fraction?_lt {text rest : List Char} {value : Nat} (read : fraction? text = some (value, rest)) :
    value < Instant.billion := by
  rw [fraction?.eq_def] at read
  split at read
  · rename_i digits
    simp only [bind, Option.bind_eq_some_iff, Prod.exists, Option.some.injEq, Prod.mk.injEq] at read
    obtain ⟨number, beyond, taken, rfl, _⟩ := read
    obtain ⟨front, rfl, spells, most⟩ := exists_digits_of_number? taken
    have count : (front ++ beyond).length - beyond.length = front.length := by
      rw [List.length_append, Nat.add_sub_cancel]
    have whole : Instant.billion = 10 ^ front.length * 10 ^ (9 - front.length) := by
      rw [← Nat.pow_add, Nat.add_sub_of_le most]
      rfl
    rw [count, whole]
    exact Nat.mul_lt_mul_of_pos_right spells.lt_pow (Nat.pow_pos (by decide))
  · cases read
    decide

theorem clockOffset?_minutes {colon : Bool} {text rest : List Char} {east : Int}
    (read : clockOffset? colon text = some (east, rest)) : east % 60 = 0 := by
  cases colon
  all_goals
    simp only [clockOffset?, bind, Option.bind_eq_some_iff, Prod.exists, Bool.false_eq_true, if_false,
      if_true, Option.ite_none_right_eq_some, Option.some.injEq, Prod.mk.injEq] at read
    obtain ⟨hours, _, _, _, _, minutes, _, _, _, total, _⟩ := read
    omega

theorem readOffset?_minutes {text rest : List Char} {east : Int}
    (read : Element.readOffset? text = some (east, rest)) : east % 60 = 0 := by
  cases text with
  | nil => cases read
  | cons sign beyond =>
      rw [Element.readOffset?] at read
      split at read
      · cases read
        rfl
      · split at read
        · exact clockOffset?_minutes read
        · split at read
          · obtain ⟨⟨west, _⟩, taken, same⟩ := Option.map_eq_some_iff.mp read
            cases same
            have minutes := clockOffset?_minutes taken
            omega
          · cases read

theorem regular_read? {element : Element} {reading next : Reading} {text rest : List Char}
    (regular : reading.Regular) (read : element.read? reading text = some (next, rest)) :
    next.Regular := by
  cases element with
  | fullYear | year =>
      obtain ⟨_, _, same⟩ := Option.map_eq_some_iff.mp read
      cases same
      exact ⟨regular.fraction, regular.offset⟩
  | full component | short component =>
      obtain ⟨_, _, same⟩ := Option.map_eq_some_iff.mp read
      cases same
      cases component <;> exact ⟨regular.fraction, regular.offset⟩
  | oneOf marks =>
      cases text with
      | nil => cases read
      | cons character beyond =>
          simp only [Element.read?, Option.ite_none_right_eq_some, Option.some.injEq,
            Prod.mk.injEq] at read
          exact read.2.1 ▸ regular
  | gap =>
      cases read
      exact regular
  | fraction =>
      obtain ⟨⟨value, _⟩, taken, same⟩ := Option.map_eq_some_iff.mp read
      cases same
      exact ⟨fraction?_lt taken, regular.offset⟩
  | offset =>
      obtain ⟨⟨value, _⟩, taken, same⟩ := Option.map_eq_some_iff.mp read
      cases same
      exact ⟨regular.fraction, readOffset?_minutes taken⟩

theorem regular_readFrom? {layout : Layout} {reading next : Reading} {text : List Char}
    (regular : reading.Regular) (read : layout.readFrom? reading text = some next) :
    next.Regular := by
  induction layout generalizing reading text with
  | nil =>
      simp only [Layout.readFrom?, Option.ite_none_right_eq_some, Option.some.injEq] at read
      exact read.2 ▸ regular
  | cons element later ih =>
      rw [Layout.readFrom?, Option.bind_eq_some_iff] at read
      obtain ⟨⟨between, rest⟩, taken, remaining⟩ := read
      exact ih (regular_read? regular taken) remaining

theorem Layout.proper {layout : Layout} {text : List Char} {moment : Instant}
    (read : layout.instant? text = some moment) : moment.Proper := by
  rw [Layout.instant?, Option.bind_eq_some_iff] at read
  obtain ⟨reading, taken, meant⟩ := read
  have empty : Reading.Regular {} := ⟨by decide, by decide⟩
  exact (regular_readFrom? empty taken).proper meant

namespace Mail

theorem zone?_minutes {text rest : List Char} {east : Int}
    (read : zone? text = some (east, rest)) : east % 60 = 0 := by
  simp only [zone?] at read
  split at read
  · cases text with
    | nil => cases read
    | cons sign beyond =>
        by_cases plus : sign = '+'
        · subst plus
          exact clockOffset?_minutes read
        · by_cases minus : sign = '-'
          · subst minus
            obtain ⟨⟨west, _⟩, taken, same⟩ := Option.map_eq_some_iff.mp read
            cases same
            have minutes := clockOffset?_minutes taken
            omega
          · simp [plus, minus] at read
  · split at read
    · cases read
      omega
    · simp only [Option.ite_none_right_eq_some, Option.some.injEq, Prod.mk.injEq] at read
      omega

def Yields {α : Type} (holds : α → Prop) (read : Option α) : Prop :=
  ∀ value, read = some value → holds value

theorem Yields.bind {α β : Type} {holds : β → Prop} {first : Option α} {next : α → Option β}
    (each : ∀ value, first = some value → Yields holds (next value)) :
    Yields holds (first >>= next) := by
  intro result read
  obtain ⟨value, taken, remaining⟩ := Option.bind_eq_some_iff.mp read
  exact each value taken result remaining

theorem regular_read? {text : List Char} {reading : Reading} (read : read? text = some reading) :
    reading.Regular := by
  have regular : Yields Reading.Regular (read? text) := by
    rw [read?]
    -- Only the zone matters: it alone sets the offset, and nothing sets the fraction.
    split
    all_goals
      refine .bind fun weekday _ => .bind fun day _ => .bind fun gap _ => .bind fun month _ =>
        .bind fun gap _ => .bind fun year _ => .bind fun gap _ => .bind fun hour _ =>
        .bind fun mark _ => .bind fun minute _ => ?_
      dsimp only
      split
      all_goals
        refine .bind fun second _ => .bind fun gap _ => .bind fun zone taken => ?_
        intro result complete
        simp only [Option.ite_none_right_eq_some, Option.some.injEq] at complete
        obtain ⟨_, rfl⟩ := complete
        exact ⟨(by decide : 0 < Instant.billion), zone?_minutes taken⟩
  exact regular reading read

theorem proper {text : List Char} {moment : Instant} (read : instant? text = some moment) :
    moment.Proper := by
  obtain ⟨reading, taken, meant⟩ := Option.bind_eq_some_iff.mp read
  exact (regular_read? taken).proper meant

end Mail

end Time

/-! ## Values -/

theorem Instant.Proper.shift {instant moment : Instant} {amount : Int} (proper : instant.Proper)
    (moved : instant.shift amount = .ok moment) : moment.Proper := by
  have nano := proper.nano
  have usual : ∀ second rest, rest < billion → (⟨second, rest⟩ : Instant).Proper := by
    intro second rest small
    exact ⟨by simp only; omega, fun leap => absurd (of_decide_eq_true leap) (Nat.not_le.mpr small)⟩
  rw [Instant.shift] at moved
  split at moved
  · cases moved
    exact proper
  · cases leap : instant.inLeapSecond with
    | true =>
        rw [leap] at moved
        generalize (if amount < 0 then instant.second + 1 else instant.second) = start at moved
        simp only [if_true] at moved
        split at moved
        · cases moved
          exact usual _ _ (by omega)
        · cases moved
    | false =>
        have small : ¬ billion ≤ instant.nano := of_decide_eq_false leap
        rw [leap] at moved
        simp only [Bool.false_eq_true, if_false] at moved
        split at moved
        · cases moved
          exact usual _ _ (Nat.not_le.mp small)
        · cases moved

namespace Time

theorem proper_of_offsetText? {text : List Char} {moment : Instant}
    (read : offsetText? text = some moment) : moment.Proper := by
  rw [offsetText?] at read
  cases stamped : Layout.stamp.instant? text with
  | some found =>
      rw [stamped] at read
      cases read
      exact Layout.proper stamped
  | none =>
      rw [stamped] at read
      exact Mail.proper read

theorem proper_of_plainText? {text : List Char} {moment : Instant}
    (read : plainText? text = some moment) : moment.Proper := by
  obtain ⟨layout, _, taken⟩ := List.exists_of_findSome?_eq_some read
  exact Layout.proper taken

theorem proper_of_ofText {text : String} {offset : Option Int} {moment : Instant}
    (read : ofText text offset = .ok (some moment)) : moment.Proper := by
  rw [ofText] at read
  split at read
  · rename_i stamped
    cases read
    exact proper_of_offsetText? stamped
  · split at read
    · rename_i naive taken
      have proper := proper_of_plainText? taken
      cases offset with
      | none =>
          cases read
          exact proper
      | some east =>
          obtain ⟨shifted, moved, same⟩ := map_eq_ok_iff.mp read
          cases same
          exact proper.shift moved
    · cases read

end Time

theorem Clock.proper_midnight {clock : Clock} {date : Date} {moment : Instant}
    (begins : clock.midnight date = .ok moment) : moment.Proper := by
  have start : (⟨Instant.startOf date, 0⟩ : Instant).Proper :=
    ⟨(by decide : 0 < 2 * Instant.billion), fun leap =>
      absurd (of_decide_eq_true leap) (by simp [Instant.billion])⟩
  exact start.shift begins

theorem Preset.proper_start {clock : Clock} {window : Preset} {moment : Instant}
    (proper : clock.now.Proper) (begins : window.start clock = .ok moment) : moment.Proper := by
  cases window with
  | lastHour | last24Hours | last7Days | last31Days | last365Days => exact proper.shift begins
  | currentMonth | currentYear =>
      obtain ⟨today, _, midnight⟩ := exists_ok_of_bind begins
      exact Clock.proper_midnight midnight

theorem Value.proper_of_resolve {clock : Clock} {value : Value} {resolved : Resolved}
    {moment : Instant} (proper : clock.now.Proper) (result : value.resolve clock = .ok resolved)
    (meant : resolved.instant? = some moment) : moment.Proper := by
  cases value with
  | literal text =>
      cases result
      have read : Time.ofText text none = .ok (some moment) := by
        rw [Time.ofText_none]
        exact congrArg Except.ok meant
      exact Time.proper_of_ofText read
  | preset window =>
      obtain ⟨start, begins, same⟩ := map_eq_ok_iff.mp result
      cases same
      cases meant
      exact Preset.proper_start proper begins
  | bound text isLocal =>
      obtain ⟨found, read, same⟩ := exists_ok_of_bind result
      cases found with
      | none =>
          cases same
          cases meant
      | some start =>
          cases same
          cases meant
          exact Time.proper_of_ofText read

end WhereEditor
