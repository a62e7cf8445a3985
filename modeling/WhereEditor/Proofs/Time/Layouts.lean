import WhereEditor.Proofs.Time.Elements
import WhereEditor.Proofs.Time.Wall

/-!
One wall time in all its layouts. Main statement: however a date and a time of day are laid out, what is
read is the moment at which a clock shows them: by the offset in the text, by the local offset, or by UTC.
-/

namespace WhereEditor

namespace WallTime

open Time Time.Layout Time.Element Instant Text

variable {wall : WallTime}

/-! ## Moments -/

def reading (wall : WallTime) (offset : Option Int) : Reading :=
  { year := wall.date.year, month := wall.date.month, day := wall.date.day, hour := wall.hour
    minute := wall.minute, second := wall.second, fraction := wall.nano, offset }

theorem dayNumber_mem (valid : wall.Valid) (early : 0 ≤ wall.date.year)
    (late : wall.date.year ≤ 9999) :
    -800000 ≤ wall.date.dayNumber ∧ wall.date.dayNumber ≤ 3000000 := by
  obtain ⟨least, bound⟩ := Date.daysBefore_le_dayNumber valid.date
  have begun : Calendar.daysBefore 0 ≤ _ := Calendar.daysBefore_mono early
  have ended : _ ≤ Calendar.daysBefore 10000 :=
    Calendar.daysBefore_mono (Int.add_le_add_right late 1)
  have first : Calendar.daysBefore 0 = -366 := by decide
  have last : Calendar.daysBefore 10000 = 3652059 := by decide
  rw [Calendar.epoch] at least bound
  omega

theorem supported_moment (valid : wall.Valid) (early : 0 ≤ wall.date.year)
    (late : wall.date.year ≤ 9999) {east second : Int} (behind : -86400 < east)
    (ahead : east < 86400) (least : (wall.moment east).second ≤ second)
    (most : second ≤ (wall.moment east).second + 1) : Supported second := by
  obtain ⟨first, last⟩ := dayNumber_mem valid early late
  have hour := valid.hour
  have minute := valid.minute
  rw [supported_iff]
  simp only [moment, startOf, secondsPerDay] at least most
  omega

theorem instant?_reading (valid : wall.Valid) (early : 0 ≤ wall.date.year)
    (late : wall.date.year ≤ 9999) (offset : Option Int) (behind : -86400 < offset.getD 0)
    (ahead : offset.getD 0 < 86400) :
    (wall.reading offset).instant? = some (wall.moment (offset.getD 0)) := by
  have within := supported_moment valid early late behind ahead (Int.le_refl _) (by omega)
  have allowed : (wall.reading offset).Valid :=
    ⟨Int.le_trans (by decide) early, Int.le_trans late (by decide), valid.date, valid.hour,
      valid.minute, valid.second, rfl⟩
  have date : (wall.reading offset).date = wall.date := rfl
  have second : startOf (wall.reading offset).date +
      ((wall.reading offset).hour * 3600 + (wall.reading offset).minute * 60 : Nat) +
        (min (wall.reading offset).second 59 : Nat) - (wall.reading offset).offset.getD 0 =
          (wall.moment (offset.getD 0)).second := by
    rw [date]
    simp only [moment, reading]
    omega
  rw [Reading.instant?]
  simp only [second]
  exact if_pos ⟨allowed, within⟩

theorem instant?_reading_none (valid : wall.Valid) (early : 0 ≤ wall.date.year)
    (late : wall.date.year ≤ 9999) : (wall.reading none).instant? = some (wall.moment 0) :=
  instant?_reading valid early late none (by decide) (by decide)

/-- The moment of a wall time at the local offset. Away from UTC a leap second does not count as one:
it is the second after it where the clock is ahead, and the second before it where it is behind. -/
def localMoment (wall : WallTime) (east : Int) : Instant :=
  if wall.second = 60 ∧ 0 < east then ⟨(wall.moment east).second + 1, wall.nano⟩
  else if wall.second = 60 ∧ east < 0 then ⟨(wall.moment east).second, wall.nano⟩
  else wall.moment east

theorem localMoment_of_lt (usual : wall.second < 60) (east : Int) :
    wall.localMoment east = wall.moment east := by
  rw [localMoment, if_neg (by omega), if_neg (by omega)]

theorem second_moment (wall : WallTime) (east : Int) :
    (wall.moment 0).second + -east = (wall.moment east).second := by
  simp only [moment]
  omega

theorem fromLocal_moment (valid : wall.Valid) (early : 0 ≤ wall.date.year)
    (late : wall.date.year ≤ 9999) {east : Int} (behind : -86400 < east) (ahead : east < 86400) :
    fromLocal (some east) (wall.moment 0) = .ok (wall.localMoment east) := by
  have within : ∀ second, (wall.moment east).second ≤ second →
      second ≤ (wall.moment east).second + 1 → Supported second :=
    fun _ => supported_moment valid early late behind ahead
  have moved := second_moment wall east
  rw [fromLocal]
  by_cases leaping : wall.second = 60
  · have leap : (wall.moment 0).inLeapSecond = true := by simp [inLeapSecond, moment, leaping]
    have remains : (wall.moment 0).nano - billion = wall.nano := by simp [moment, leaping]
    rcases Int.lt_trichotomy east 0 with west | rfl | forward
    · rw [shift_forth_of_leap leap (by omega) (within _ (by omega) (by omega)), remains, moved,
        localMoment, if_neg (by omega), if_pos ⟨leaping, west⟩]
    · rw [localMoment, if_neg (by omega), if_neg (by omega)]
      rfl
    · have next : (wall.moment 0).second + 1 + -east = (wall.moment east).second + 1 := by omega
      rw [shift_back_of_leap leap (by omega) (within _ (by omega) (by omega)), remains, next,
        localMoment, if_pos ⟨leaping, forward⟩]
  · have nano := valid.nano
    have usual : (wall.moment 0).inLeapSecond = false := by simp [inLeapSecond, moment, leaping, nano]
    have kept : (wall.moment 0).nano = (wall.moment east).nano := rfl
    have usually : wall.second < 60 := Nat.lt_of_le_of_ne valid.second leaping
    rw [shift_of_usual usual (within _ (by omega) (by omega)), moved, kept,
      localMoment_of_lt usually]

/-! ## Texts -/

def dateText (wall : WallTime) : String :=
  zeroPadded 4 wall.date.year ++ "-" ++ zeroPadded 2 wall.date.month ++ "-" ++
    zeroPadded 2 wall.date.day

def minuteText (wall : WallTime) : String :=
  zeroPadded 2 wall.hour ++ ":" ++ zeroPadded 2 wall.minute

def secondText (wall : WallTime) : String := wall.minuteText ++ ":" ++ zeroPadded 2 wall.second

/-- The layouts without an offset. A text without seconds means the whole minute, and a text without a
time means midnight. -/
inductive Plain (wall : WallTime) : String → Prop
  | seconds {separator fraction : String} : separator = "T" ∨ separator = " " →
      IsFraction wall.nano fraction →
      Plain wall (wall.dateText ++ separator ++ wall.secondText ++ fraction)
  | minutes {separator : String} : separator = "T" ∨ separator = " " → wall.second = 0 →
      wall.nano = 0 → Plain wall (wall.dateText ++ separator ++ wall.minuteText)
  | date : wall = midnight wall.date → Plain wall wall.dateText

inductive Stamped (wall : WallTime) (east : Int) : String → Prop
  | seconds {fraction suffix : String} : IsFraction wall.nano fraction → IsOffset east suffix →
      Stamped wall east (wall.dateText ++ "T" ++ wall.secondText ++ fraction ++ suffix)

structure DateSpelled (wall : WallTime) : Prop where
  year : Spells 4 wall.date.year.toNat (zeroPadded 4 wall.date.year).toList
  month : Spells 2 wall.date.month (zeroPadded 2 wall.date.month).toList
  day : Spells 2 wall.date.day (zeroPadded 2 wall.date.day).toList

theorem dateSpelled (valid : wall.Valid) (early : 0 ≤ wall.date.year)
    (late : wall.date.year ≤ 9999) : wall.DateSpelled := by
  obtain ⟨_, lastMonth, _, lastDay⟩ := valid.date
  have longest := Calendar.monthLength_le wall.date.year (wall.date.month - 1)
  have year : Spells 4 wall.date.year.toNat (zeroPadded 4 wall.date.year.toNat).toList :=
    spells_zeroPadded (by decide) (by omega)
  rw [Int.toNat_of_nonneg early] at year
  exact ⟨year, spells_two _ (by omega), spells_two _ (by omega)⟩

theorem toList_dateText (wall : WallTime) :
    wall.dateText.toList = (zeroPadded 4 wall.date.year).toList ++
      '-' :: ((zeroPadded 2 wall.date.month).toList ++ '-' :: (zeroPadded 2 wall.date.day).toList) := by
  simp [dateText]

theorem toList_minuteText (wall : WallTime) :
    wall.minuteText.toList =
      (zeroPadded 2 wall.hour).toList ++ ':' :: (zeroPadded 2 wall.minute).toList := by
  simp [minuteText]

theorem toList_secondText (wall : WallTime) :
    wall.secondText.toList = wall.minuteText.toList ++ ':' :: (zeroPadded 2 wall.second).toList := by
  simp [secondText]

/-! ## Layouts with an offset -/

section

variable {later : Layout} {reading : Reading} {rest : List Char}

def putDate (wall : WallTime) (reading : Reading) : Reading :=
  { reading with year := wall.date.year, month := wall.date.month, day := wall.date.day }

def putMinute (wall : WallTime) (reading : Reading) : Reading :=
  { reading with hour := wall.hour, minute := wall.minute }

theorem readFrom?_fullDate (spelled : wall.DateSpelled) (early : 0 ≤ wall.date.year) :
    readFrom? (.fullYear :: mark '-' :: .full .month :: mark '-' :: .full .day :: later) reading
      (wall.dateText.toList ++ rest) = readFrom? later (wall.putDate reading) rest := by
  simp only [toList_dateText, List.append_assoc, List.cons_append]
  rw [readFrom?_fullYear spelled.year, readFrom?_mark, readFrom?_full _ spelled.month,
    readFrom?_mark, readFrom?_full _ spelled.day, Int.toNat_of_nonneg early]
  rfl

theorem readFrom?_plainDate (spelled : wall.DateSpelled) (early : 0 ≤ wall.date.year) :
    readFrom? (plainDate ++ later) reading (wall.dateText.toList ++ rest) =
      readFrom? later (wall.putDate reading) rest := by
  simp only [toList_dateText, List.append_assoc, List.cons_append, plainDate, List.nil_append]
  rw [readFrom?_year spelled.year, readFrom?_mark, readFrom?_short _ spelled.month,
    readFrom?_mark, readFrom?_short _ spelled.day, Int.toNat_of_nonneg early]
  rfl

theorem readFrom?_fullMinute (valid : wall.Valid) :
    readFrom? (.full .hour :: mark ':' :: .full .minute :: later) reading
      (wall.minuteText.toList ++ rest) = readFrom? later (wall.putMinute reading) rest := by
  have hour := valid.hour
  have minute := valid.minute
  simp only [toList_minuteText, List.append_assoc, List.cons_append]
  rw [readFrom?_full _ (spells_two _ (by omega)), readFrom?_mark,
    readFrom?_full _ (spells_two _ (by omega))]
  rfl

theorem readFrom?_plainMinute (valid : wall.Valid) :
    readFrom? (plainMinute ++ later) reading (wall.minuteText.toList ++ rest) =
      readFrom? later (wall.putMinute reading) rest := by
  have hour := valid.hour
  have minute := valid.minute
  simp only [toList_minuteText, List.append_assoc, List.cons_append, plainMinute, List.nil_append]
  rw [readFrom?_short _ (spells_two _ (by omega)), readFrom?_mark,
    readFrom?_short _ (spells_two _ (by omega))]
  rfl

end

theorem exists_separator {separator : String} (either : separator = "T" ∨ separator = " ") :
    ∃ mark : Char, (mark = 'T' ∨ mark = ' ') ∧ separator.toList = [mark] := by
  rcases either with rfl | rfl
  · exact ⟨'T', .inl rfl, rfl⟩
  · exact ⟨' ', .inr rfl, rfl⟩

theorem exists_toList_seconds (wall : WallTime) {separator : String}
    (either : separator = "T" ∨ separator = " ") (fraction : String) :
    ∃ mark, (mark = 'T' ∨ mark = ' ') ∧
      (wall.dateText ++ separator ++ wall.secondText ++ fraction).toList =
        wall.dateText.toList ++ mark :: (wall.minuteText.toList ++ ':' ::
          ((zeroPadded 2 wall.second).toList ++ fraction.toList)) := by
  obtain ⟨mark, marks, text⟩ := exists_separator either
  exact ⟨mark, marks, by simp [toList_secondText, text]⟩

theorem exists_toList_minutes (wall : WallTime) {separator : String}
    (either : separator = "T" ∨ separator = " ") :
    ∃ mark, (mark = 'T' ∨ mark = ' ') ∧ (wall.dateText ++ separator ++ wall.minuteText).toList =
      wall.dateText.toList ++ mark :: wall.minuteText.toList := by
  obtain ⟨mark, marks, text⟩ := exists_separator either
  exact ⟨mark, marks, by simp [text]⟩

def stampTime : Layout :=
  [oneOf ['T', 't', ' '], .full .hour, mark ':', .full .minute, mark ':', .full .second, .fraction,
    .offset]

theorem readFrom?_stamp (spelled : wall.DateSpelled) (early : 0 ≤ wall.date.year)
    (rest : List Char) :
    stamp.readFrom? {} (wall.dateText.toList ++ rest) =
      stampTime.readFrom? (wall.putDate {}) rest :=
  readFrom?_fullDate spelled early

theorem readFrom?_stampMinute (valid : wall.Valid) {separator : Char}
    (either : separator = 'T' ∨ separator = ' ') (reading : Reading) (rest : List Char) :
    stampTime.readFrom? reading (separator :: (wall.minuteText.toList ++ rest)) =
      readFrom? [mark ':', .full .second, .fraction, .offset] (wall.putMinute reading) rest := by
  have member : separator ∈ ['T', 't', ' '] := by rcases either with rfl | rfl <;> decide
  rw [stampTime, readFrom?_oneOf member, readFrom?_fullMinute valid]

theorem readFrom?_stampSecond (valid : wall.Valid) {fraction : String} {rest : List Char}
    (written : IsFraction wall.nano fraction) (ends : Ends rest) (reading : Reading) :
    readFrom? [mark ':', .full .second, .fraction, .offset] reading
        (':' :: ((zeroPadded 2 wall.second).toList ++ (fraction.toList ++ rest))) =
      readFrom? [.offset] { reading with second := wall.second, fraction := wall.nano } rest := by
  have second := valid.second
  rw [readFrom?_mark, readFrom?_full _ (spells_two _ (by omega)), readFrom?_fraction written ends]
  rfl

theorem instant?_stamp_of_stamped (valid : wall.Valid) (early : 0 ≤ wall.date.year)
    (late : wall.date.year ≤ 9999) {east : Int} {text : String} (written : wall.Stamped east text) :
    stamp.instant? text.toList = some (wall.moment east) := by
  obtain @⟨fraction, suffix, isFraction, isOffset⟩ := written
  obtain ⟨behind, ahead⟩ := isOffset.bounds
  obtain ⟨mark, marks, whole⟩ := exists_toList_seconds wall (.inl rfl) (fraction ++ suffix)
  have spelled := dateSpelled valid early late
  rw [String.append_assoc, whole, String.toList_append, Layout.instant?,
    readFrom?_stamp spelled early, readFrom?_stampMinute valid marks,
    readFrom?_stampSecond valid isFraction (ends_of_isOffset isOffset), readFrom?_offset isOffset]
  exact instant?_reading valid early late (some east) behind ahead

theorem instant?_stamp_of_plain (valid : wall.Valid) (early : 0 ≤ wall.date.year)
    (late : wall.date.year ≤ 9999) {text : String} (written : wall.Plain text) :
    stamp.instant? text.toList = none := by
  have spelled := dateSpelled valid early late
  have unread : stamp.readFrom? {} text.toList = none := by
    cases written with
    | @seconds separator fraction either isFraction =>
        obtain ⟨mark, marks, whole⟩ := exists_toList_seconds wall either fraction
        rw [whole, readFrom?_stamp spelled early, readFrom?_stampMinute valid marks,
          ← List.append_nil fraction.toList, readFrom?_stampSecond valid isFraction ends_nil]
        rfl
    | @minutes separator either =>
        obtain ⟨mark, marks, whole⟩ := exists_toList_minutes wall either
        rw [whole, readFrom?_stamp spelled early, ← List.append_nil wall.minuteText.toList,
          readFrom?_stampMinute valid marks]
        rfl
    | date =>
        rw [← List.append_nil wall.dateText.toList, readFrom?_stamp spelled early]
        rfl
  rw [Layout.instant?, unread, Option.bind_none]

/-! ## Layouts without an offset -/

def plainTimes : List Layout :=
  [mark 'T' :: plainSecond, mark 'T' :: plainMinute, gap :: plainSecond, gap :: plainMinute, []]

theorem plainText?_dateText (spelled : wall.DateSpelled) (early : 0 ≤ wall.date.year)
    (rest : List Char) :
    plainText? (wall.dateText.toList ++ rest) =
      plainTimes.findSome? fun later =>
        (later.readFrom? (wall.putDate {}) rest).bind Reading.instant? := by
  have layouts : plain = plainTimes.map (plainDate ++ ·) := rfl
  have each : ((fun layout : Layout => layout.instant? (wall.dateText.toList ++ rest)) ∘
      (plainDate ++ ·)) = fun later : Layout =>
        (later.readFrom? (wall.putDate {}) rest).bind Reading.instant? := by
    funext later
    simp only [Function.comp, Layout.instant?, readFrom?_plainDate spelled early]
  rw [plainText?, layouts, List.findSome?_map, each]

section

variable {later : Layout} {reading : Reading} {rest : List Char}

theorem readFrom?_mark_of_ne {first next : Char} (differ : next ≠ first) :
    readFrom? (mark first :: later) reading (next :: rest) = none := by
  simp [readFrom?, mark, Element.read?, differ]

theorem readFrom?_gap (valid : wall.Valid) :
    readFrom? (gap :: later) reading (' ' :: (wall.minuteText.toList ++ rest)) =
      readFrom? later reading (wall.minuteText.toList ++ rest) := by
  have hour := valid.hour
  have skipped : ∀ text, trimStart (' ' :: text) = trimStart text := fun text =>
    List.dropWhile_cons_of_pos (by decide)
  have blank : trimStart (' ' :: (wall.minuteText.toList ++ rest)) =
      wall.minuteText.toList ++ rest := by
    rw [skipped, toList_minuteText, List.append_assoc, trimStart_of_spells (spells_two _ (by omega))]
  rw [readFrom?, Element.read?, blank]
  rfl

theorem readFrom?_plainSecond_minuteText (valid : wall.Valid) :
    plainSecond.readFrom? reading wall.minuteText.toList = none := by
  rw [plainSecond, ← List.append_nil wall.minuteText.toList, readFrom?_plainMinute valid]
  rfl

theorem readFrom?_plainMinute_minuteText (valid : wall.Valid) :
    plainMinute.readFrom? reading wall.minuteText.toList = some (wall.putMinute reading) := by
  rw [← List.append_nil plainMinute, ← List.append_nil wall.minuteText.toList,
    readFrom?_plainMinute valid]
  rfl

theorem readFrom?_plainSecond (valid : wall.Valid) {fraction : String}
    (written : IsFraction wall.nano fraction) (reading : Reading) :
    plainSecond.readFrom? reading (wall.minuteText.toList ++ ':' ::
      ((zeroPadded 2 wall.second).toList ++ fraction.toList)) =
        some { wall.putMinute reading with second := wall.second, fraction := wall.nano } := by
  have second := valid.second
  rw [plainSecond, readFrom?_plainMinute valid, readFrom?_mark,
    readFrom?_short _ (spells_two _ (by omega)), ← List.append_nil fraction.toList,
    readFrom?_fraction written ends_nil]
  rfl

end

theorem plainText?_seconds (valid : wall.Valid) (early : 0 ≤ wall.date.year)
    (late : wall.date.year ≤ 9999) {separator fraction : String}
    (either : separator = "T" ∨ separator = " ") (isFraction : IsFraction wall.nano fraction) :
    plainText? (wall.dateText ++ separator ++ wall.secondText ++ fraction).toList =
      some (wall.moment 0) := by
  obtain ⟨mark, marks, whole⟩ := exists_toList_seconds wall either fraction
  have read := readFrom?_plainSecond valid isFraction (wall.putDate {})
  have meant : (some { wall.putMinute (wall.putDate {}) with
      second := wall.second, fraction := wall.nano }).bind Reading.instant? =
        some (wall.moment 0) :=
    instant?_reading_none valid early late
  rw [whole, plainText?_dateText (dateSpelled valid early late) early, plainTimes]
  rcases marks with rfl | rfl
  · simp only [List.findSome?_cons, readFrom?_mark, read, meant]
  · simp only [List.findSome?_cons, readFrom?_mark_of_ne (by decide : ' ' ≠ 'T'),
      readFrom?_gap valid, read, meant, Option.bind_none]

theorem plainText?_minutes (valid : wall.Valid) (early : 0 ≤ wall.date.year)
    (late : wall.date.year ≤ 9999) {separator : String} (either : separator = "T" ∨ separator = " ")
    (noSecond : wall.second = 0) (noNano : wall.nano = 0) :
    plainText? (wall.dateText ++ separator ++ wall.minuteText).toList = some (wall.moment 0) := by
  obtain ⟨mark, marks, whole⟩ := exists_toList_minutes wall either
  have meant : (some (wall.putMinute (wall.putDate {}))).bind Reading.instant? =
      some (wall.moment 0) := by
    rw [← instant?_reading_none valid early late, reading, noSecond, noNano]
    rfl
  have blank : ∀ {later : Layout}, readFrom? (gap :: later) (wall.putDate {})
      (' ' :: wall.minuteText.toList) =
        readFrom? later (wall.putDate {}) wall.minuteText.toList := by
    intro later
    rw [← List.append_nil wall.minuteText.toList, readFrom?_gap valid]
  rw [whole, plainText?_dateText (dateSpelled valid early late) early, plainTimes]
  -- With either separator the layout with seconds is tried first, and finds none.
  rcases marks with rfl | rfl
  · simp only [List.findSome?_cons, readFrom?_mark, readFrom?_plainSecond_minuteText valid,
      readFrom?_plainMinute_minuteText valid, meant, Option.bind_none]
  · simp only [List.findSome?_cons, readFrom?_mark_of_ne (by decide : ' ' ≠ 'T'), blank,
      readFrom?_plainSecond_minuteText valid, readFrom?_plainMinute_minuteText valid, meant,
      Option.bind_none]

theorem plainText?_date (valid : wall.Valid) (early : 0 ≤ wall.date.year)
    (late : wall.date.year ≤ 9999) (isMidnight : wall = midnight wall.date) :
    plainText? wall.dateText.toList = some (wall.moment 0) := by
  have meant : (some (wall.putDate {})).bind Reading.instant? = some (wall.moment 0) := by
    rw [← instant?_reading_none valid early late, isMidnight]
    rfl
  have timed : ∀ later ∈ plainTimes.dropLast, readFrom? later (wall.putDate {}) [] = none := by
    intro later member
    simp only [plainTimes, List.dropLast_cons_cons, List.dropLast_singleton, List.mem_cons,
      List.not_mem_nil, or_false] at member
    rcases member with rfl | rfl | rfl | rfl <;> rfl
  have unread : plainTimes.dropLast.findSome? (fun later =>
      (readFrom? later (wall.putDate {}) []).bind Reading.instant?) = none :=
    List.findSome?_eq_none_iff.mpr fun later member => by
      rw [timed later member, Option.bind_none]
  have times : plainTimes = plainTimes.dropLast ++ [[]] := rfl
  rw [← List.append_nil wall.dateText.toList, plainText?_dateText (dateSpelled valid early late) early,
    times, List.findSome?_append, unread, Option.none_or, List.findSome?_singleton]
  exact meant

theorem plainText?_of_plain (valid : wall.Valid) (early : 0 ≤ wall.date.year)
    (late : wall.date.year ≤ 9999) {text : String} (written : wall.Plain text) :
    plainText? text.toList = some (wall.moment 0) := by
  cases written with
  | seconds either isFraction => exact plainText?_seconds valid early late either isFraction
  | minutes either noSecond noNano =>
      exact plainText?_minutes valid early late either noSecond noNano
  | date isMidnight => exact plainText?_date valid early late isMidnight

/-- A text that begins with a date is no mail date. -/
theorem mail_dateText (spelled : wall.DateSpelled) (rest : List Char) :
    Mail.instant? (wall.dateText.toList ++ rest) = none := by
  have year := spelled.year
  obtain ⟨first, second, third, others, digits⟩ : ∃ first second third others,
      (zeroPadded 4 wall.date.year).toList = first :: second :: third :: others := by
    match shape : (zeroPadded 4 wall.date.year).toList, year.length with
    | [first, second, third, fourth], _ => exact ⟨first, second, third, [fourth], rfl⟩
  have all := year.digits
  rw [digits] at all
  rw [toList_dateText, digits, Mail.instant?]
  simp only [List.cons_append]
  rw [Mail.read?_of_digits fun digit member => all digit ?_, Option.bind_none]
  exact (List.mem_append_left others member : digit ∈ [first, second, third] ++ others)

/-! ## Surroundings -/

theorem Plain.exists_rest {text : String} (written : wall.Plain text) :
    ∃ rest, text.toList = wall.dateText.toList ++ rest := by
  cases written with
  | @seconds separator fraction =>
      exact ⟨(separator ++ wall.secondText ++ fraction).toList, by simp⟩
  | @minutes separator => exact ⟨(separator ++ wall.minuteText).toList, by simp⟩
  | date => exact ⟨[], (List.append_nil _).symm⟩

theorem Stamped.exists_rest {east : Int} {text : String} (written : wall.Stamped east text) :
    ∃ rest, text.toList = wall.dateText.toList ++ rest := by
  obtain @⟨fraction, suffix, _, _⟩ := written
  exact ⟨("T" ++ wall.secondText ++ fraction ++ suffix).toList, by simp⟩

theorem isBlank_head_dateText (spelled : wall.DateSpelled) {rest : List Char} {first : Char}
    (found : (wall.dateText.toList ++ rest).head? = some first) : isBlank first = false := by
  obtain ⟨digit, others, year, isDigit⟩ := spelled.year.exists_digit
  rw [toList_dateText, year] at found
  cases found
  exact isBlank_of_isDigit isDigit

theorem endsVisible_secondText (valid : wall.Valid) {fraction : String}
    (written : IsFraction wall.nano fraction) :
    EndsVisible (wall.secondText ++ fraction).toList := by
  have second := valid.second
  cases written with
  | whole =>
      rw [String.append_empty, toList_secondText]
      have spells := spells_two wall.second (by omega)
      exact (spells.endsVisible.cons ':').append _
  | @digits count value least _ small =>
      obtain ⟨width, rfl⟩ := Nat.exists_eq_add_one.mpr least
      have spells : Spells (width + 1) value _ := spells_zeroPadded least small
      simp only [String.toList_append]
      exact (spells.endsVisible.append _).append _

theorem Plain.endsVisible (valid : wall.Valid) (spelled : wall.DateSpelled) {text : String}
    (written : wall.Plain text) : EndsVisible text.toList := by
  cases written with
  | seconds either isFraction =>
      rw [String.append_assoc, String.toList_append]
      exact (endsVisible_secondText valid isFraction).append _
  | minutes either =>
      have minute := valid.minute
      have spells := spells_two wall.minute (by omega)
      rw [String.toList_append, toList_minuteText]
      exact ((spells.endsVisible.cons ':').append _).append _
  | date =>
      rw [toList_dateText]
      exact (((spelled.day.endsVisible.cons '-').append _).cons '-').append _

theorem Stamped.endsVisible {east : Int} {text : String} (written : wall.Stamped east text) :
    EndsVisible text.toList := by
  obtain @⟨fraction, suffix, _, isOffset⟩ := written
  rw [String.toList_append]
  refine EndsVisible.append ?_ _
  cases isOffset with
  | utc => exact ⟨[], 'Z', rfl, by decide⟩
  | @ahead hours minutes _ small =>
      have spells := spells_two minutes (by omega)
      rw [String.toList_append]
      exact spells.endsVisible.append _
  | @behind hours minutes _ small =>
      have spells := spells_two minutes (by omega)
      rw [String.toList_append]
      exact spells.endsVisible.append _

end WallTime

namespace Time

open Text WallTime

/-- In the years 0 to 9999 every layout of a wall time, with any blanks around it, means the same: with an
offset in the text the moment at which a clock with that offset shows it, whatever the local offset is,
and else the moment by the local offset, or by UTC where there is none. -/
theorem ofText_layouts {wall : WallTime} (valid : wall.Valid) (early : 0 ≤ wall.date.year)
    (late : wall.date.year ≤ 9999) {before after : String}
    (blankBefore : ∀ character ∈ before.toList, isBlank character = true)
    (blankAfter : ∀ character ∈ after.toList, isBlank character = true) :
    (∀ text, wall.Plain text →
      ofText (before ++ text ++ after) none = .ok (some (wall.moment 0)) ∧
      ∀ east, -86400 < east → east < 86400 →
        ofText (before ++ text ++ after) (some east) = .ok (some (wall.localMoment east))) ∧
    ∀ east text, wall.Stamped east text → ∀ offset,
      ofText (before ++ text ++ after) offset = .ok (some (wall.moment east)) := by
  have spelled := dateSpelled valid early late
  have trimmed : ∀ text : String, (∃ rest, text.toList = wall.dateText.toList ++ rest) →
      EndsVisible text.toList → trim (before ++ text ++ after).toList = text.toList := by
    rintro text ⟨rest, whole⟩ ends
    rw [String.toList_append, String.toList_append]
    refine trim_surrounded blankBefore blankAfter (fun first found => ?_) ends
    rw [whole] at found
    exact isBlank_head_dateText spelled found
  constructor
  · intro text written
    have read := plainText?_of_plain valid early late written
    have unstamped : offsetText? text.toList = none := by
      obtain ⟨rest, whole⟩ := written.exists_rest
      rw [offsetText?, instant?_stamp_of_plain valid early late written, whole, mail_dateText spelled]
      rfl
    have trims := trimmed text written.exists_rest (written.endsVisible valid spelled)
    refine ⟨?_, fun east behind ahead => ?_⟩
    · simp only [ofText, trims, unstamped, read]
      rfl
    · simp only [ofText, trims, unstamped, read, fromLocal_moment valid early late behind ahead]
      rfl
  · intro east text written offset
    have read : offsetText? text.toList = some (wall.moment east) := by
      rw [offsetText?, instant?_stamp_of_stamped valid early late written]
      rfl
    simp only [ofText, trimmed text written.exists_rest written.endsVisible, read]

/-- Late on the leap day of the year 0 by a clock an hour behind UTC, which is in March. -/
theorem ofText_layouts_leapDay :
    let wall : WallTime := ⟨⟨0, 2, 29⟩, 23, 30, 5, 250000000⟩
    wall.Valid ∧ 0 ≤ wall.date.year ∧ wall.date.year ≤ 9999 ∧
      (∀ character ∈ "\t".toList, isBlank character = true) ∧
      (∀ character ∈ "\u00a0 ".toList, isBlank character = true) ∧
      wall.Plain "0000-02-29 23:30:05.25" ∧
      wall.Stamped (-3600) "0000-02-29T23:30:05.2500-01:00" ∧
      ofText "\t0000-02-29 23:30:05.25\u00a0 " (some (-3600)) =
        .ok (some ⟨-62162033395, 250000000⟩) ∧
      ofText "\t0000-02-29T23:30:05.2500-01:00\u00a0 " (some 7200) =
        .ok (some ⟨-62162033395, 250000000⟩) ∧
      (⟨-62162033395, 250000000⟩ : Instant).date = ⟨0, 3, 1⟩ := by
  intro wall
  have valid : wall.Valid := ⟨by decide, by decide, by decide, by decide, by decide⟩
  have early : 0 ≤ wall.date.year := by decide
  have late : wall.date.year ≤ 9999 := by decide
  have blankBefore : ∀ character ∈ "\t".toList, isBlank character = true := by simp [isBlank]
  have blankAfter : ∀ character ∈ "\u00a0 ".toList, isBlank character = true := by simp [isBlank]
  have plain : wall.Plain "0000-02-29 23:30:05.25" := by
    have text : wall.dateText ++ " " ++ wall.secondText ++ ("." ++ zeroPadded 2 (25 : Nat)) =
        "0000-02-29 23:30:05.25" := by
      decide +kernel
    rw [← text]
    exact .seconds (.inr rfl) (.digits (by decide) (by decide) (by decide) (by decide))
  have stamped : wall.Stamped (-3600) "0000-02-29T23:30:05.2500-01:00" := by
    have text : wall.dateText ++ "T" ++ wall.secondText ++ ("." ++ zeroPadded 4 (2500 : Nat)) ++
        ("-" ++ zeroPadded 2 (1 : Nat) ++ ":" ++ zeroPadded 2 (0 : Nat)) =
          "0000-02-29T23:30:05.2500-01:00" := by
      decide +kernel
    rw [← text]
    exact .seconds (.digits (by decide) (by decide) (by decide) (by decide))
      (.behind (by decide : 1 < 24) (by decide : 0 < 60))
  have moment : wall.moment (-3600) = ⟨-62162033395, 250000000⟩ := by decide
  have localMoment : wall.localMoment (-3600) = ⟨-62162033395, 250000000⟩ := by decide
  obtain ⟨plainly, exactly⟩ := ofText_layouts valid early late blankBefore blankAfter
  have read := (plainly _ plain).2 (-3600) (by decide) (by decide)
  have stamp := exactly _ _ stamped (some 7200)
  rw [localMoment] at read
  rw [moment] at stamp
  exact ⟨valid, early, late, blankBefore, blankAfter, plain, stamped, read, stamp, by decide⟩

end Time

end WhereEditor
