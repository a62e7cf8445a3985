import Mathlib.Data.String.Basic
import WhereEditor.Proofs.Text.Decimal
import WhereEditor.Proofs.Time.Calendar
import WhereEditor.Proofs.Time.Range

/-!
Ticks as text. Main statements: from the year 1 on, the ticks of two moments are ordered as texts as
the moments are ordered to the millisecond; and moments have no ticks where these do not fit in 64 bits
and in the two thousand years before the first that do.
-/

namespace WhereEditor.Instant

open Calendar Text

variable {instant : Instant} {text : String}

theorem ticks?_eq_some_iff :
    instant.ticks? = some text ↔ Fits64 (instant.milliseconds * 10000) ∧
      Fits64 (instant.milliseconds * 10000 + epochTicks) ∧
      zeroPadded 20 (instant.milliseconds * 10000 + epochTicks) = text := by
  rw [ticks?]
  simp only [Option.ite_none_right_eq_some, Option.some.injEq, and_assoc]

theorem startOf_yearOne : startOf ⟨1, 1, 1⟩ = -62135596800 := by
  decide

theorem startOf_yearOne_le (early : 1 ≤ instant.date.year) :
    startOf ⟨1, 1, 1⟩ ≤ instant.second := by
  obtain ⟨least, _⟩ := daysBefore_yearOf (instant.second / secondsPerDay + epoch)
  have begun : daysBefore 1 ≤ daysBefore (yearOf (instant.second / secondsPerDay + epoch)) :=
    daysBefore_mono early
  have zero : daysBefore 1 = 0 := rfl
  rw [zero] at begun
  rw [startOf_yearOne]
  rw [secondsPerDay, epoch] at least begun
  omega

theorem exists_ticks (early : 1 ≤ instant.date.year) (late : instant.date.year ≤ 9999)
    (nano : instant.nano < 2 * billion) : ∃ text, instant.ticks? = some text := by
  obtain ⟨least, most⟩ := second_mem (Int.le_trans (by decide) early) late
  rw [billion] at nano
  refine ⟨_, ticks?_eq_some_iff.mpr ⟨?_, ?_, rfl⟩⟩
  all_goals simp only [Fits64, milliseconds, epochTicks]; omega

theorem ticks_nonneg (since : startOf ⟨1, 1, 1⟩ ≤ instant.second) :
    0 ≤ instant.milliseconds * 10000 + epochTicks := by
  rw [startOf_yearOne] at since
  rw [milliseconds, epochTicks]
  omega

theorem spells_ticks (since : startOf ⟨1, 1, 1⟩ ≤ instant.second)
    (found : instant.ticks? = some text) :
    Spells 20 (instant.milliseconds * 10000 + epochTicks).toNat text.toList := by
  obtain ⟨_, fits, rfl⟩ := ticks?_eq_some_iff.mp found
  have nonneg := ticks_nonneg since
  have small : (instant.milliseconds * 10000 + epochTicks).toNat < 10 ^ 20 := by
    have bound := fits.2
    omega
  have spells := spells_zeroPadded (by decide : 0 < 20) small
  rwa [Int.toNat_of_nonneg nonneg] at spells

/-- As texts, the ticks of moments from the year 1 on are ordered as the moments are in time, to the
millisecond. -/
theorem ticks_lt_iff {earlier later : Instant} {first second : String}
    (since : startOf ⟨1, 1, 1⟩ ≤ earlier.second) (others : startOf ⟨1, 1, 1⟩ ≤ later.second)
    (written : earlier.ticks? = some first) (found : later.ticks? = some second) :
    (first.toList.length = 20 ∧ ∀ character ∈ first.toList, character.isDigit = true) ∧
      (second.toList.length = 20 ∧ ∀ character ∈ second.toList, character.isDigit = true) ∧
      (first < second ↔ earlier.milliseconds < later.milliseconds) := by
  have spells := spells_ticks since written
  have spellsLater := spells_ticks others found
  refine ⟨⟨spells.length, spells.digits⟩, ⟨spellsLater.length, spellsLater.digits⟩, ?_⟩
  have least := ticks_nonneg since
  have most := ticks_nonneg others
  rw [String.lt_iff_toList_lt, spells.lt_iff spellsLater]
  omega

/-- The first second of the year 1 and one in the year 29222, whose ticks nearly fill 64 bits. -/
theorem ticks_lt_iff_extremes :
    let earlier : Instant := ⟨-62135596800, 0⟩
    let later : Instant := ⟨860000000000, 999999999⟩
    let first := "00000000000000000000"
    let second := "09221355968009990000"
    earlier.ticks? = some first ∧ later.ticks? = some second ∧
      first.toList.length = 20 ∧ second.toList.length = 20 ∧
      (first < second ↔ earlier.milliseconds < later.milliseconds) := by
  intro earlier later first second
  have written : earlier.ticks? = some first := by decide +kernel
  have found : later.ticks? = some second := by decide +kernel
  obtain ⟨⟨width, _⟩, ⟨others, _⟩, order⟩ :=
    ticks_lt_iff (by decide : startOf ⟨1, 1, 1⟩ ≤ earlier.second)
      (by decide : startOf ⟨1, 1, 1⟩ ≤ later.second) written found
  exact ⟨written, found, width, others, order⟩

/-! ## Range -/

/-- The ticks since 1970 are counted first. They leave 64 bits at the lower end before those since the
year 1 do, and at the upper end after them. -/
theorem ticks?_eq_none_iff_milliseconds :
    instant.ticks? = none ↔ ¬Fits64 (instant.milliseconds * 10000 + epochTicks) ∨
      instant.milliseconds * 10000 < -9223372036854775808 := by
  simp only [ticks?, ite_eq_right_iff, reduceCtorEq, imp_false]
  simp only [Fits64, epochTicks]
  omega

theorem fits64_milliseconds (supported : Supported instant.second)
    (nano : instant.nano < 2 * billion) : Fits64 instant.milliseconds := by
  rw [supported_iff] at supported
  rw [billion] at nano
  rw [Fits64, milliseconds]
  omega

theorem spellsInt_ticks (found : instant.ticks? = some text) :
    SpellsInt 20 (instant.milliseconds * 10000 + epochTicks) text.toList := by
  obtain ⟨_, fits, rfl⟩ := ticks?_eq_some_iff.mp found
  have bounds := fits
  rw [Fits64] at bounds
  exact spellsInt_zeroPadded (by decide) (by omega)

/-- A moment of the supported years has no ticks if they do not fit in 64 bits, and in the years -29227 to
-27258, where those since the year 1 would fit but those since 1970 do not. All others have their
ticks written in decimal with twenty characters. -/
theorem ticks?_eq_none_iff (supported : Supported instant.second)
    (nano : instant.nano < 2 * billion) :
    Fits64 instant.milliseconds ∧
      (instant.ticks? = none ↔
        ¬Fits64 (10000 * instant.milliseconds + 621355968000000000) ∨
          -984472800485477 ≤ instant.milliseconds ∧ instant.milliseconds ≤ -922337203685478) ∧
      ∀ text, instant.ticks? = some text →
        SpellsInt 20 (10000 * instant.milliseconds + 621355968000000000) text.toList := by
  refine ⟨fits64_milliseconds supported nano, ?_, fun text found => ?_⟩
  · rw [ticks?_eq_none_iff_milliseconds, Int.mul_comm, epochTicks, Fits64]
    omega
  · have spells := spellsInt_ticks found
    rwa [Int.mul_comm, epochTicks] at spells

/-- The first millisecond after those years, and the last one that has ticks. -/
theorem ticks?_eq_none_iff_bounds :
    let first : Instant := ⟨-922337203686, 523000000⟩
    let last : Instant := ⟨860201606885, 477999999⟩
    (Supported first.second ∧ first.nano < 2 * billion) ∧
      (Supported last.second ∧ last.nano < 2 * billion) ∧
      first.ticks? = some "-8602016068854770000" ∧ last.ticks? = some "09223372036854770000" ∧
      SpellsInt 20 (-8602016068854770000) "-8602016068854770000".toList ∧
      SpellsInt 20 9223372036854770000 "09223372036854770000".toList := by
  intro first last
  have early : Supported first.second ∧ first.nano < 2 * billion := by decide
  have late : Supported last.second ∧ last.nano < 2 * billion := by decide
  have written : first.ticks? = some "-8602016068854770000" := by decide +kernel
  have found : last.ticks? = some "09223372036854770000" := by decide +kernel
  have least : 10000 * first.milliseconds + 621355968000000000 = -8602016068854770000 := by decide
  have most : 10000 * last.milliseconds + 621355968000000000 = 9223372036854770000 := by decide
  have spells := (ticks?_eq_none_iff early.1 early.2).2.2 _ written
  have spellsLast := (ticks?_eq_none_iff late.1 late.2).2.2 _ found
  rw [least] at spells
  rw [most] at spellsLast
  exact ⟨early, late, written, found, spells, spellsLast⟩

/-- A moment of the year -27258: its ticks fit in 64 bits, and it has none. -/
theorem ticks?_eq_none_of_fitting :
    let instant : Instant := ⟨-922337203686, 0⟩
    Supported instant.second ∧ Fits64 (10000 * instant.milliseconds + 621355968000000000) ∧
      instant.ticks? = none := by
  decide

end WhereEditor.Instant
