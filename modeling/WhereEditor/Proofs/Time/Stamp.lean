import WhereEditor.Proofs.Text.Blank
import WhereEditor.Proofs.Text.Decimal
import WhereEditor.Proofs.Time.Calendar
import WhereEditor.Proofs.Time.Range

/-!
Timestamps written and read again. Main statement: in the years 0 to 9999, what is written for a
moment is read as that moment to the millisecond, with any local offset or none, also before 1970 and
within a leap second.
-/

namespace WhereEditor

namespace Time

open Text

/-! ## Numbers -/

theorem number?_of_spells {least most width value : Nat} {text rest : List Char}
    (spells : Spells width value text) (enough : least ≤ width) (fits : width ≤ most)
    (stops : (rest.take (most - width)).takeWhile Char.isDigit = []) :
    number? least most (text ++ rest) = some (value, rest) := by
  have digits : ((text ++ rest).take most).takeWhile Char.isDigit = text := by
    rw [List.take_append, spells.length, List.take_of_length_le (by rwa [spells.length]),
      List.takeWhile_append_of_pos spells.digits, stops, List.append_nil]
  have long : ¬ text.length < least := by
    rw [spells.length]
    omega
  rw [number?, digits, if_neg long, spells.numeral, List.drop_left]

theorem number?_full {width value : Nat} {text : List Char} (spells : Spells width value text)
    (rest : List Char) : number? width width (text ++ rest) = some (value, rest) :=
  number?_of_spells spells (Nat.le_refl _) (Nat.le_refl _) (by simp)

/-! ## Fractions -/

def Ends (rest : List Char) : Prop :=
  ∀ next ∈ rest.head?, next.isDigit = false ∧ next ≠ '.'

theorem ends_nil : Ends [] := by
  rintro next ⟨⟩

theorem ends_cons {first : Char} {rest : List Char} (mark : first.isDigit = false ∧ first ≠ '.') :
    Ends (first :: rest) := by
  rintro next ⟨⟩
  exact mark

theorem takeWhile_of_ends {rest : List Char} (ends : Ends rest) (count : Nat) :
    (rest.take count).takeWhile Char.isDigit = [] := by
  cases count with
  | zero => rfl
  | succ count =>
      cases rest with
      | nil => rfl
      | cons next beyond =>
          have mark := (ends next rfl).1
          rw [List.take_succ_cons, List.takeWhile_cons_of_neg (by simp [mark])]

theorem dropWhile_of_ends {rest : List Char} (ends : Ends rest) :
    rest.dropWhile Char.isDigit = rest := by
  cases rest with
  | nil => rfl
  | cons next beyond =>
      have mark := (ends next rfl).1
      exact List.dropWhile_cons_of_neg (by simp [mark])

theorem fraction?_of_spells {count value : Nat} {text rest : List Char}
    (spells : Spells count value text) (least : 1 ≤ count) (most : count ≤ 9) (ends : Ends rest) :
    fraction? ('.' :: (text ++ rest)) = some (value * 10 ^ (9 - count), rest) := by
  have number : number? 1 9 (text ++ rest) = some (value, rest) :=
    number?_of_spells spells least most (takeWhile_of_ends ends (9 - count))
  have length : (text ++ rest).length - rest.length = count := by
    rw [List.length_append, Nat.add_sub_cancel, spells.length]
  simp only [fraction?, number, length, dropWhile_of_ends ends, bind, Option.bind_some]
  rfl

/-! ## A timestamp, element by element -/

namespace Layout

variable {value : Nat} {text rest : List Char} {later : Layout} {reading : Reading}

theorem readFrom?_fullYear (spells : Spells 4 value text) :
    readFrom? (.fullYear :: later) reading (text ++ rest) =
      readFrom? later { reading with year := value } rest := by
  rw [readFrom?, Element.read?, number?_full spells]
  rfl

theorem readFrom?_full (component : Component) (spells : Spells 2 value text) :
    readFrom? (.full component :: later) reading (text ++ rest) =
      readFrom? later (component.put value reading) rest := by
  rw [readFrom?, Element.read?, number?_full spells]
  rfl

theorem readFrom?_oneOf {character : Char} {marks : List Char} (member : character ∈ marks) :
    readFrom? (.oneOf marks :: later) reading (character :: rest) = readFrom? later reading rest := by
  simp only [readFrom?, Element.read?, if_pos member, Option.bind_some]

theorem readFrom?_mark (character : Char) :
    readFrom? (.mark character :: later) reading (character :: rest) =
      readFrom? later reading rest :=
  readFrom?_oneOf List.mem_cons_self

theorem readFrom?_end (spells : Spells 3 value text) :
    readFrom? [.fraction, .offset] reading ('.' :: (text ++ ['Z'])) =
      some { reading with fraction := value * 1000000, offset := some 0 } := by
  rw [readFrom?, Element.read?,
    fraction?_of_spells spells (by decide) (by decide) (ends_cons (by decide))]
  rfl

end Layout

end Time

namespace Instant

open Calendar Text

/-- A clock shows less than a second, or is in a leap second, which comes at the end of a minute. -/
structure Proper (instant : Instant) : Prop where
  nano : instant.nano < 2 * billion
  leap : instant.inLeapSecond = true → instant.second % 60 = 59

theorem Proper.leap_cases {instant : Instant} (proper : instant.Proper) :
    instant.nano / billion = 0 ∨ instant.nano / billion = 1 ∧ instant.second % 60 = 59 := by
  have nano := proper.nano
  by_cases inside : instant.inLeapSecond = true
  · have reached : billion ≤ instant.nano := by simpa [inLeapSecond] using inside
    rw [billion] at nano reached ⊢
    exact .inr ⟨by omega, proper.leap inside⟩
  · have below : ¬ billion ≤ instant.nano := by simpa [inLeapSecond] using inside
    rw [billion] at below ⊢
    exact .inl (by omega)

def stamp (instant : Instant) : Reading :=
  let second := (instant.second % secondsPerDay).toNat
  { year := instant.date.year, month := instant.date.month, day := instant.date.day
    hour := second / 3600, minute := second / 60 % 60
    second := second % 60 + instant.nano / billion
    fraction := instant.nano % billion / 1000000 * 1000000, offset := some 0 }

variable {instant : Instant}

theorem instant?_stamp (proper : instant.Proper) (early : 0 ≤ instant.date.year)
    (late : instant.date.year ≤ 9999) :
    instant.stamp.instant? = some { instant with nano := instant.nano / 1000000 * 1000000 } := by
  obtain ⟨valid, number⟩ := Date.ofDayNumber_spec (instant.second / secondsPerDay)
  have near := second_mem early late
  have within : Supported instant.second := supported_iff.mpr (by omega)
  have leap := proper.leap_cases
  have start : startOf instant.stamp.date = instant.second / secondsPerDay * secondsPerDay :=
    congrArg (· * secondsPerDay) number
  rw [secondsPerDay] at start
  have wall : startOf instant.stamp.date +
      (instant.stamp.hour * 3600 + instant.stamp.minute * 60 : Nat) +
        (min instant.stamp.second 59 : Nat) - instant.stamp.offset.getD 0 = instant.second := by
    rw [start]
    simp only [stamp, secondsPerDay, Option.getD_some]
    omega
  have fraction : instant.stamp.fraction + (if instant.stamp.second = 60 then billion else 0) =
      instant.nano / 1000000 * 1000000 := by
    have digits : instant.stamp.fraction = instant.nano % billion / 1000000 * 1000000 := rfl
    -- A leap second is written as the second 60, and only a second 60 is read as one.
    rcases leap with usual | ⟨leaping, last⟩
    · have below : instant.stamp.second ≠ 60 := by
        simp only [stamp, secondsPerDay]
        omega
      rw [if_neg below, digits]
      rw [billion] at usual ⊢
      omega
    · have reached : instant.stamp.second = 60 := by
        simp only [stamp, secondsPerDay]
        omega
      rw [if_pos reached, digits]
      rw [billion] at leaping ⊢
      omega
  have allowed : instant.stamp.Valid := by
    have first : firstYear ≤ instant.date.year := Int.le_trans (by decide) early
    have last : instant.date.year ≤ lastYear := Int.le_trans late (by decide)
    refine ⟨first, last, valid, ?_, ?_, ?_, rfl⟩
    all_goals simp only [stamp, secondsPerDay]; omega
  rw [Reading.instant?]
  simp only [wall, fraction]
  exact if_pos ⟨allowed, within⟩

theorem spells_year (early : 0 ≤ instant.date.year) (late : instant.date.year ≤ 9999) :
    Spells 4 instant.date.year.toNat (zeroPadded 4 instant.date.year.toNat).toList :=
  spells_zeroPadded (by decide) (by omega)

theorem toList_iso (early : 0 ≤ instant.date.year) (late : instant.date.year ≤ 9999) :
    let two (number : Nat) : List Char := (zeroPadded 2 number).toList
    instant.iso.toList =
      (zeroPadded 4 instant.date.year.toNat).toList ++ '-' :: (two instant.stamp.month ++ '-' ::
        (two instant.stamp.day ++ 'T' :: (two instant.stamp.hour ++ ':' ::
          (two instant.stamp.minute ++ ':' :: (two instant.stamp.second ++ '.' ::
            ((zeroPadded 3 (instant.nano % billion / 1000000 : Nat)).toList ++ ['Z'])))))) := by
  intro two
  have year : yearText instant.date.year = zeroPadded 4 instant.date.year.toNat := by
    rw [yearText, if_pos ⟨early, late⟩, Int.toNat_of_nonneg early]
  have marks : "-".toList = ['-'] ∧ "T".toList = ['T'] ∧ ":".toList = [':'] ∧ ".".toList = ['.'] ∧
      "Z".toList = ['Z'] := ⟨rfl, rfl, rfl, rfl, rfl⟩
  simp only [iso, year, two, stamp, String.toList_append, marks, List.append_assoc,
    List.cons_append, List.nil_append]

theorem readFrom?_iso (proper : instant.Proper) (early : 0 ≤ instant.date.year)
    (late : instant.date.year ≤ 9999) :
    Time.Layout.stamp.readFrom? {} instant.iso.toList = some instant.stamp := by
  obtain ⟨⟨_, lastMonth, _, lastDay⟩, _⟩ :=
    Date.ofDayNumber_spec (instant.second / secondsPerDay)
  have longest := monthLength_le instant.date.year (instant.date.month - 1)
  have leap := proper.leap_cases
  have day : (instant.second % secondsPerDay).toNat < 86400 := by
    rw [secondsPerDay]
    omega
  have month := spells_two instant.stamp.month (Nat.lt_of_le_of_lt lastMonth (by decide))
  have dayOfMonth := spells_two instant.stamp.day
    (Nat.lt_of_le_of_lt (Nat.le_trans lastDay longest) (by decide))
  have hour := spells_two instant.stamp.hour (by simp only [stamp]; omega)
  have minute := spells_two instant.stamp.minute (by simp only [stamp]; omega)
  have second := spells_two instant.stamp.second (by simp only [stamp]; omega)
  have milli : Spells 3 (instant.nano % billion / 1000000) (zeroPadded 3 _).toList :=
    spells_zeroPadded (by decide) (by rw [billion]; omega)
  rw [toList_iso early late, Time.Layout.stamp,
    Time.Layout.readFrom?_fullYear (spells_year early late), Time.Layout.readFrom?_mark,
    Time.Layout.readFrom?_full _ month, Time.Layout.readFrom?_mark,
    Time.Layout.readFrom?_full _ dayOfMonth, Time.Layout.readFrom?_oneOf (by decide),
    Time.Layout.readFrom?_full _ hour, Time.Layout.readFrom?_mark,
    Time.Layout.readFrom?_full _ minute, Time.Layout.readFrom?_mark,
    Time.Layout.readFrom?_full _ second, Time.Layout.readFrom?_end milli]
  simp only [Time.Component.put, Int.toNat_of_nonneg early]
  rfl

theorem offsetText?_iso (proper : instant.Proper) (early : 0 ≤ instant.date.year)
    (late : instant.date.year ≤ 9999) :
    Time.offsetText? instant.iso.toList =
      some { instant with nano := instant.nano / 1000000 * 1000000 } := by
  rw [Time.offsetText?, Time.Layout.instant?, readFrom?_iso proper early late, Option.bind_some,
    instant?_stamp proper early late]
  rfl

theorem trim_iso (early : 0 ≤ instant.date.year) (late : instant.date.year ≤ 9999) :
    trim instant.iso.toList = instant.iso.toList := by
  refine trim_eq_self (fun first found => ?_) ⟨_, 'Z', String.toList_append, rfl⟩
  obtain ⟨digit, rest, whole, isDigit⟩ := (spells_year early late).exists_digit
  rw [toList_iso early late, whole] at found
  cases found
  exact isBlank_of_isDigit isDigit

end Instant

namespace Time

/-- What is written for a moment of the years 0 to 9999 is read as that moment, less what it has
beyond the millisecond. A local offset plays no part, for the text carries its own. -/
theorem ofText_iso {instant : Instant} (proper : instant.Proper) (early : 0 ≤ instant.date.year)
    (late : instant.date.year ≤ 9999) (offset : Option Int) :
    ofText instant.iso offset =
      .ok (some { instant with nano := instant.nano / 1000000 * 1000000 }) := by
  rw [ofText, Instant.trim_iso early late, Instant.offsetText?_iso proper early late]

/-- Within a leap second before 1970, by a local time two hours ahead. -/
theorem ofText_iso_leap :
    let instant : Instant := ⟨-1, 1987654321⟩
    instant.Proper ∧ 0 ≤ instant.date.year ∧ instant.date.year ≤ 9999 ∧
      instant.iso = "1969-12-31T23:59:60.987Z" ∧
      ofText instant.iso (some 7200) = .ok (some ⟨-1, 1987000000⟩) := by
  intro instant
  have proper : instant.Proper := ⟨by decide, fun _ => rfl⟩
  have early : 0 ≤ instant.date.year := by decide
  have late : instant.date.year ≤ 9999 := by decide
  have cut : instant.nano / 1000000 * 1000000 = 1987000000 := by decide
  have read := ofText_iso proper early late (some 7200)
  rw [cut] at read
  exact ⟨proper, early, late, by decide +kernel, read⟩

end Time

end WhereEditor
