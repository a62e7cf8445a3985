import Mathlib.Data.String.Basic
import WhereEditor.Proofs.Support
import WhereEditor.Proofs.Text.Decimal
import WhereEditor.Query.Sql

/-!
Integers that are stored as padded text. Main statement: comparing the texts selects what comparing
the numbers selects, except between two negative numbers of as many digits, which come in the opposite
order.
-/

namespace WhereEditor

def Operator.Relates {α : Type} [LT α] (operator : Operator) (first second : α) : Prop :=
  match operator with
  | equal => first = second
  | greater => second < first
  | greaterOrEqual => ¬first < second
  | less => first < second
  | lessOrEqual => ¬second < first
  | notEqual => first ≠ second

namespace Sql

open Instant Text

def Mirrored (first second : Int) : Prop :=
  first < 0 ∧ second < 0 ∧ (toString first).length = (toString second).length

instance (first second : Int) : Decidable (Mirrored first second) :=
  inferInstanceAs (Decidable (_ ∧ _))

/-! ## Texts -/

theorem spells_padded {value : Nat} (small : value < 10 ^ 20) :
    Spells 20 value (padded (toString (value : Int))).toList := by
  have sign : ¬(value : Int) < 0 := by omega
  have text : zeroPadded 20 value = padded (toString (value : Int)) := by
    rw [zeroPadded, if_neg sign, Int.natAbs_natCast, padded, toString_natCast]
  rw [← text]
  exact spells_zeroPadded (by decide) small

theorem toList_padded_neg {value : Nat} (positive : 0 < value) :
    (padded (toString (-value : Int))).toList =
      List.replicate (19 - (toString value).length) '0' ++ '-' :: (toString value).toList := by
  have zeros : 20 - (toString (-value : Int)).length = 19 - (toString value).length := by
    rw [length_toString_neg positive]
    omega
  rw [padded, padStart, zeros, toString_neg positive, String.toList_append, String.toList_ofList,
    String.toList_append]
  rfl

/-! ## Order -/

theorem padded_neg_lt {value other : Nat} (positive : 0 < value) (small : other < 10 ^ 20) :
    padded (toString (-value : Int)) < padded (toString (other : Int)) := by
  have spells := spells_padded small
  have wide : 19 - (toString value).length < (padded (toString (other : Int))).toList.length := by
    rw [spells.length]
    omega
  rw [String.lt_iff_toList_lt, toList_padded_neg positive]
  exact signed_lt spells.digits wide

/-- Of two negative numbers the one with more digits comes first. -/
theorem padded_neg_lt_of_length_lt {value other : Nat} (positive : 0 < value)
    (shorter : (toString value).length < (toString other).length)
    (fits : (toString other).length ≤ 19) :
    padded (toString (-other : Int)) < padded (toString (-value : Int)) := by
  have larger := lt_of_length_toString_lt shorter
  obtain ⟨more, total⟩ : ∃ more, 19 - (toString value).length =
      (19 - (toString other).length) + (more + 1) :=
    ⟨(toString other).length - (toString value).length - 1, by omega⟩
  rw [String.lt_iff_toList_lt, toList_padded_neg positive,
    toList_padded_neg (Nat.zero_lt_of_lt larger), total, ← List.replicate_append_replicate,
    List.append_assoc, append_lt_append_iff, List.replicate_succ, List.cons_append,
    List.cons_lt_cons_iff]
  exact .inl (by decide)

/-- Of two negative numbers with as many digits the larger one comes first. -/
theorem padded_neg_lt_iff {value other : Nat} (positive : 0 < value) (others : 0 < other)
    (same : (toString value).length = (toString other).length) :
    padded (toString (-value : Int)) < padded (toString (-other : Int)) ↔ value < other := by
  have spells := spells_toString value
  have spellsOther := spells_toString other
  rw [same] at spells
  rw [String.lt_iff_toList_lt, toList_padded_neg positive, toList_padded_neg others, same,
    append_lt_append_iff, List.cons_lt_cons_iff, spells.lt_iff spellsOther]
  simp

theorem padded_neg_lt_padded_neg_iff {value other : Nat} (positive : 0 < value) (others : 0 < other)
    (short : (toString value).length ≤ 19) (shortOther : (toString other).length ≤ 19) :
    padded (toString (-value : Int)) < padded (toString (-other : Int)) ↔
      if (toString value).length = (toString other).length then value < other
      else other < value := by
  rcases Nat.lt_trichotomy (toString value).length (toString other).length with
    shorter | same | longer
  · have later := padded_neg_lt_of_length_lt positive shorter shortOther
    have larger := lt_of_length_toString_lt shorter
    rw [if_neg (Nat.ne_of_lt shorter)]
    exact iff_of_false (not_lt_of_gt later) (by omega)
  · rw [if_pos same]
    exact padded_neg_lt_iff positive others same
  · have earlier := padded_neg_lt_of_length_lt others longer short
    have larger := lt_of_length_toString_lt longer
    rw [if_neg (Nat.ne_of_gt longer)]
    exact iff_of_true earlier larger

theorem padded_lt_padded_iff {first second : Int} (fits : Fits64 first) (within : Fits64 second) :
    padded (toString first) < padded (toString second) ↔
      if Mirrored first second then second < first else first < second := by
  have nonneg_or_neg (number : Int) :
      (∃ value : Nat, number = value) ∨ ∃ value : Nat, 0 < value ∧ number = -value := by
    rcases Int.lt_or_le number 0 with below | atLeast
    · exact .inr ⟨number.natAbs, by omega⟩
    · exact .inl (Int.eq_ofNat_of_zero_le atLeast)
  rw [Fits64] at fits within
  rcases nonneg_or_neg first with ⟨value, rfl⟩ | ⟨value, positive, rfl⟩ <;>
    rcases nonneg_or_neg second with ⟨other, rfl⟩ | ⟨other, others, rfl⟩
  · have small : value < 10 ^ 20 := by omega
    have smallOther : other < 10 ^ 20 := by omega
    have spells := spells_padded small
    have spellsOther := spells_padded smallOther
    rw [if_neg (fun mirrored => absurd mirrored.1 (by omega)), String.lt_iff_toList_lt,
      spells.lt_iff spellsOther, Int.ofNat_lt]
  · have small : value < 10 ^ 20 := by omega
    have later := padded_neg_lt others small
    rw [if_neg (fun mirrored => absurd mirrored.1 (by omega))]
    exact iff_of_false (not_lt_of_gt later) (by omega)
  · have small : other < 10 ^ 20 := by omega
    have earlier := padded_neg_lt positive small
    rw [if_neg (fun mirrored => absurd mirrored.2.1 (by omega))]
    exact iff_of_true earlier (by omega)
  · have short : (toString value).length ≤ 19 :=
      (length_toString_le_iff (by decide)).mpr (by omega)
    have shortOther : (toString other).length ≤ 19 :=
      (length_toString_le_iff (by decide)).mpr (by omega)
    have lengths : Mirrored (-value) (-other) ↔
        (toString value).length = (toString other).length := by
      rw [Mirrored, length_toString_neg positive, length_toString_neg others]
      omega
    simp only [padded_neg_lt_padded_neg_iff positive others short shortOther, lengths,
      Int.neg_lt_neg_iff, Int.ofNat_lt]

theorem mirrored_comm {first second : Int} : Mirrored first second ↔ Mirrored second first := by
  rw [Mirrored, Mirrored, eq_comm]
  tauto

theorem padded_inj {first second : Int} (fits : Fits64 first) (within : Fits64 second) :
    padded (toString first) = padded (toString second) ↔ first = second := by
  refine ⟨fun same => ?_, fun same => by rw [same]⟩
  have notBefore : ¬padded (toString first) < padded (toString second) := by
    rw [same]
    exact lt_irrefl _
  have notAfter : ¬padded (toString second) < padded (toString first) := by
    rw [same]
    exact lt_irrefl _
  rw [padded_lt_padded_iff fits within] at notBefore
  rw [padded_lt_padded_iff within fits, if_congr mirrored_comm rfl rfl] at notAfter
  by_cases mirrored : Mirrored first second
  · rw [if_pos mirrored] at notBefore notAfter
    omega
  · rw [if_neg mirrored] at notBefore notAfter
    omega

theorem comparison_int64 {field : String} (free : Field.isReserved field = false)
    (operator : Operator) (value : Resolved) :
    comparison { field, type := .edm .int64, operator, value } =
      "c." ++ field ++ "[\"$v\"] " ++ operator.symbol ++ " '" ++ padded value.text ++ "'" := by
  simp only [Field.isReserved, Bool.or_eq_false_iff, beq_eq_false_iff_ne] at free
  obtain ⟨⟨partition, row⟩, timestamp⟩ := free
  have marks : "[\"$v\"] " = "[\"$v\"]" ++ " " ∧ " '" = " " ++ "'" := ⟨rfl, rfl⟩
  rw [comparison]
  simp only [if_neg partition, if_neg row, if_neg timestamp, literal, quoted, marks,
    String.append_assoc]

/-- A comparison with an Int64 property is written with the padded text of the number. Of two numbers of
64 bits, the padded texts stand in the relation that the operator asks for just if the numbers do;
but two negative numbers with as many digits have to do so the other way round. -/
theorem relates_padded_iff {field : String} {stored sought : Int} (operator : Operator)
    (free : Field.isReserved field = false) (fits : Fits64 stored) (within : Fits64 sought) :
    comparison { field, type := .edm .int64, operator, value := .literal (toString sought) } =
        "c." ++ field ++ "[\"$v\"] " ++ operator.symbol ++ " '" ++ padded (toString sought) ++ "'" ∧
      (operator.Relates (padded (toString stored)) (padded (toString sought)) ↔
        if Mirrored stored sought then operator.Relates sought stored
        else operator.Relates stored sought) := by
  refine ⟨comparison_int64 free operator _, ?_⟩
  have before := padded_lt_padded_iff fits within
  have after := padded_lt_padded_iff within fits
  have same := padded_inj fits within
  rw [if_congr mirrored_comm rfl rfl] at after
  by_cases mirrored : Mirrored stored sought
  · rw [if_pos mirrored] at before after ⊢
    cases operator <;> simp only [Operator.Relates, before, after, same, ne_eq, eq_comm]
  · rw [if_neg mirrored] at before after ⊢
    cases operator <;> simp only [Operator.Relates, before, after, same, ne_eq]

/-- The extremes of 64 bits, and two negative numbers of one digit. -/
theorem relates_padded_iff_negative :
    let least : Int := -9223372036854775808
    let most : Int := 9223372036854775807
    Field.isReserved "Count" = false ∧ Fits64 least ∧ Fits64 most ∧ Fits64 (-2) ∧ Fits64 (-1) ∧
      comparison
          { field := "Count", type := .edm .int64, operator := .less, value := .literal "-1" } =
        "c.Count[\"$v\"] < '000000000000000000-1'" ∧
      padded (toString least) < padded (toString most) ∧
      ¬padded (toString (-2 : Int)) < padded (toString (-1 : Int)) := by
  intro least most
  have free : Field.isReserved "Count" = false := by decide
  have first : Fits64 least := by decide
  have last : Fits64 most := by decide
  have two : Fits64 (-2) := by decide
  have one : Fits64 (-1) := by decide
  have extremes := (relates_padded_iff .less free first last).2
  have pair := relates_padded_iff .less free two one
  rw [if_neg (by decide)] at extremes
  rw [if_pos (by decide)] at pair
  have written : "c." ++ "Count" ++ "[\"$v\"] " ++ Operator.less.symbol ++ " '" ++
      padded (toString (-1 : Int)) ++ "'" = "c.Count[\"$v\"] < '000000000000000000-1'" := by
    decide +kernel
  exact ⟨free, first, last, two, one, pair.1.trans written,
    extremes.mpr (by decide : least < most), mt pair.2.mp (by decide : ¬(-1 : Int) < -2)⟩

/-- The text of -1 comes before that of -2. -/
theorem exists_padded_lt_of_gt :
    padded (toString (-1 : Int)) < padded (toString (-2 : Int)) ∧ (-2 : Int) < -1 := by
  decide

end Sql

end WhereEditor
