import WhereEditor.Proofs.Time.Elements
import WhereEditor.Proofs.Time.Proper
import WhereEditor.Proofs.Time.Ticks
import WhereEditor.Query.Filter
import WhereEditor.Query.Sql

/-!
Moments in two languages. Main statement: where a DateTime clause has a moment, a filter expression and
SQL over documents name the same one, as a timestamp, in seconds or in ticks.
-/

namespace WhereEditor

open Text

namespace Time

/-- What begins with the letter d is no date: it is no number, and no name of a day begins so. -/
theorem utcOfText?_of_d {rest : List Char} {text : String} (begins : text.toList = 'd' :: rest) :
    utcOfText? text = none := by
  have trimmed : trim text.toList = 'd' :: trimEnd rest := by
    rw [begins, trim_cons_of_visible (by decide)]
  have unnamed : Mail.name? Mail.dayNames ('d' :: trimEnd rest) = none :=
    Mail.name?_eq_none (by decide)
  have unmailed : Mail.read? ('d' :: trimEnd rest) = none := by
    have blank : trimStart ('d' :: trimEnd rest) = 'd' :: trimEnd rest :=
      List.dropWhile_cons_of_neg (by decide)
    have unnumbered : number? 1 2 ('d' :: trimEnd rest) = none := rfl
    refine Mail.read?_eq_none unnamed fun day later found => ?_
    rw [blank, unnumbered] at found
    cases found
  have unstamped : Layout.stamp.instant? ('d' :: trimEnd rest) = none := rfl
  have unread : plainText? ('d' :: trimEnd rest) = none := rfl
  rw [utcOfText?, trimmed, offsetText?, unstamped, Mail.instant?, unmailed, unread]
  rfl

end Time

variable {value : Resolved} {moment : Instant}

theorem Filter.dateTime_of_instant? (meant : value.instant? = some moment) :
    dateTime value = "datetime" ++ quoted moment.iso := by
  cases value with
  | literal text =>
      have read : Time.utcOfText? text = some moment := meant
      have unwritten : text.startsWith "datetime'" = false := by
        by_contra written
        obtain ⟨rest, whole⟩ := String.startsWith_string_iff.mp (eq_true_of_ne_false written)
        have absent := Time.utcOfText?_of_d whole.symm
        rw [read] at absent
        cases absent
      simp [dateTime, unwritten, read]
  | instant found =>
      cases meant
      rfl
  | unparsed text isLocal => cases meant

theorem Sql.seconds_of_instant? (meant : value.instant? = some moment) :
    seconds value = toString moment.second := by
  rw [seconds, meant]

theorem Sql.literal_of_ticks? {digits : String} (meant : value.instant? = some moment)
    (found : moment.ticks? = some digits) : literal .dateTime value = quoted digits := by
  simp [literal, DataType.dateTime, meant, found]

namespace Style

variable {clause : Clause} {clock : Clock}

theorem writeClause_filter (typed : clause.type = .dateTime)
    (resolved : clause.value.resolve clock = .ok value) (meant : value.instant? = some moment) :
    Filter.style.writeClause clock clause = .ok (clause.field ++ " " ++ clause.operator.word ++ " " ++
      ("datetime'" ++ moment.iso ++ "'")) := by
  have timestamp : "datetime" ++ quoted moment.iso = "datetime'" ++ moment.iso ++ "'" := by
    have mark : "datetime'" = "datetime" ++ "'" := rfl
    simp only [quoted, mark, String.append_assoc]
  have literal : Filter.literal clause.type value = "datetime'" ++ moment.iso ++ "'" := by
    rw [typed]
    exact (Filter.dateTime_of_instant? meant).trans timestamp
  rw [writeClause, resolved, ← literal]
  rfl

theorem writeClause_sql {digits : String} (typed : clause.type = .dateTime)
    (partition : clause.field ≠ Field.partitionKey) (row : clause.field ≠ Field.rowKey)
    (resolved : clause.value.resolve clock = .ok value) (meant : value.instant? = some moment)
    (found : moment.ticks? = some digits) :
    Sql.style.writeClause clock clause = .ok (if clause.field = Field.timestamp then
        "c._ts " ++ clause.operator.symbol ++ " " ++ toString moment.second
      else "c." ++ clause.field ++ "[\"$v\"] " ++ clause.operator.symbol ++ " " ++
        ("'" ++ digits ++ "'")) := by
  have written : Sql.comparison
      { field := clause.field, type := clause.type, operator := clause.operator, value } =
        if clause.field = Field.timestamp then
          "c._ts " ++ clause.operator.symbol ++ " " ++ toString moment.second
        else "c." ++ clause.field ++ "[\"$v\"] " ++ clause.operator.symbol ++ " " ++
          ("'" ++ digits ++ "'") := by
    have marks : "c._ts " = "c._ts" ++ " " ∧ "[\"$v\"] " = "[\"$v\"]" ++ " " := ⟨rfl, rfl⟩
    rw [Sql.comparison]
    simp only [if_neg partition, if_neg row]
    split
    · simp only [Sql.seconds_of_instant? meant, marks, String.append_assoc]
    · simp only [typed, Sql.literal_of_ticks? meant found, quoted, marks, String.append_assoc]
  rw [writeClause, resolved, ← written]
  rfl

/-- Where a DateTime clause, other than on a key, has a moment of the years 1 to 9999, both languages
write that moment: a filter expression as a timestamp, which is read again to the millisecond, and SQL as
whole seconds in the timestamp of a document and else as twenty digits that count ticks. Out of leap
seconds, the seconds are the ticks rounded down. -/
theorem writeClause_moment {value : Resolved} {moment : Instant} (proper : clock.now.Proper)
    (typed : clause.type = .dateTime) (partition : clause.field ≠ Field.partitionKey)
    (row : clause.field ≠ Field.rowKey) (resolved : clause.value.resolve clock = .ok value)
    (meant : value.instant? = some moment) (early : 1 ≤ moment.date.year)
    (late : moment.date.year ≤ 9999) :
    Filter.style.writeClause clock clause =
        .ok (clause.field ++ " " ++ clause.operator.word ++ " " ++
          ("datetime'" ++ moment.iso ++ "'")) ∧
      (∀ offset, Time.ofText moment.iso offset =
        .ok (some { moment with nano := moment.nano / 1000000 * 1000000 })) ∧
      ∃ (ticks : Nat) (digits : String), Spells 20 ticks digits.toList ∧
        Sql.style.writeClause clock clause =
          .ok (if clause.field = Field.timestamp then
              "c._ts " ++ clause.operator.symbol ++ " " ++ toString moment.second
            else "c." ++ clause.field ++ "[\"$v\"] " ++ clause.operator.symbol ++ " " ++
              ("'" ++ digits ++ "'")) ∧
        (ticks : Int) = 10000 * moment.milliseconds + 621355968000000000 ∧
        (moment.inLeapSecond = false →
          moment.second = ((ticks : Int) - 621355968000000000) / 10000000) := by
  have whole : moment.Proper := Value.proper_of_resolve proper resolved meant
  have since := Instant.startOf_yearOne_le early
  have nonneg := Instant.ticks_nonneg since
  obtain ⟨digits, found⟩ := Instant.exists_ticks early late whole.nano
  have counted : 0 ≤ moment.date.year := Int.le_trans (by decide) early
  refine ⟨writeClause_filter typed resolved meant, fun offset => ?_,
    _, digits, Instant.spells_ticks since found,
    writeClause_sql typed partition row resolved meant found, ?_, fun outside => ?_⟩
  · rw [Time.ofText, Instant.trim_iso counted late, Instant.offsetText?_iso whole counted late]
  · rw [Int.toNat_of_nonneg nonneg, Instant.epochTicks, Int.mul_comm]
  · have second : moment.nano < 1000000000 := Nat.not_le.mp (of_decide_eq_false outside)
    rw [Int.toNat_of_nonneg nonneg, Instant.epochTicks, Instant.milliseconds]
    omega

/-- A bound before 1970, typed by a local time an hour ahead while a leap second runs. -/
theorem writeClause_moment_bound :
    let clock : Clock := ⟨⟨1710505859, 1500000000⟩, 3600⟩
    let clause : Clause :=
      { combinator := .and, field := "Born", type := .dateTime, operator := .less
        value := .bound "1969-12-31 23:59:59.9995" true }
    let moment : Instant := ⟨-3601, 999500000⟩
    clock.now.Proper ∧ clause.type = .dateTime ∧ clause.field ≠ Field.partitionKey ∧
      clause.field ≠ Field.rowKey ∧ clause.value.resolve clock = .ok (.instant moment) ∧
      1 ≤ moment.date.year ∧ moment.date.year ≤ 9999 ∧
      Filter.style.writeClause clock clause =
        .ok "Born lt datetime'1969-12-31T22:59:59.999Z'" ∧
      Sql.style.writeClause clock clause =
        .ok "c.Born[\"$v\"] < '00621355931999990000'" ∧
      moment.second = (621355931999990000 - 621355968000000000) / 10000000 := by
  intro clock clause moment
  have proper : clock.now.Proper := ⟨by decide, fun _ => rfl⟩
  have resolved : clause.value.resolve clock = .ok (.instant moment) := by decide +kernel
  have early : 1 ≤ moment.date.year := by decide
  have late : moment.date.year ≤ 9999 := by decide
  have iso : moment.iso = "1969-12-31T22:59:59.999Z" := by decide +kernel
  obtain ⟨filter, _, ticks, _, _, _, total, seconds⟩ :=
    writeClause_moment proper (rfl : clause.type = .dateTime) (by decide) (by decide) resolved rfl
      early late
  have count : (ticks : Int) = 621355931999990000 := total.trans (by decide)
  have written : Sql.style.writeClause clock clause =
      .ok "c.Born[\"$v\"] < '00621355931999990000'" := by
    decide +kernel
  have floor := seconds rfl
  rw [iso] at filter
  rw [count] at floor
  exact ⟨proper, rfl, by decide, by decide, resolved, early, late, filter, written, floor⟩

end Style

end WhereEditor
