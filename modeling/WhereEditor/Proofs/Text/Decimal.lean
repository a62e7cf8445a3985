import Mathlib.Algebra.Ring.Nat
import WhereEditor.Text.Decimal

/-!
Numbers written in decimal and read again. Main statements: what is written for a number of 64 bits
is read as that number; a number that is filled up with zeros has as many digits as it is wide; and
numbers of one width are ordered as their texts are.
-/

namespace WhereEditor.Text

theorem numeral_eq_ofDigitChars (digits : List Char) :
    numeral digits = Nat.ofDigitChars 10 digits 0 := by
  rw [Nat.ofDigitChars_eq_foldl]
  rfl

theorem toList_toString (number : Nat) : (toString number).toList = Nat.toDigits 10 number := by
  simp

theorem length_toString_le_iff {number width : Nat} (positive : 0 < width) :
    (toString number).length ≤ width ↔ number < 10 ^ width := by
  rw [← String.length_toList, toList_toString]
  exact Nat.length_toDigits_le_iff (by decide) positive

theorem length_toString_pos (number : Nat) : 0 < (toString number).length := by
  rw [← String.length_toList, toList_toString]
  exact Nat.length_toDigits_pos

theorem lt_of_length_toString_lt {first second : Nat}
    (shorter : (toString first).length < (toString second).length) : first < second := by
  have positive := length_toString_pos first
  have small := (length_toString_le_iff positive).mp (Nat.le_refl (toString first).length)
  have large := mt (length_toString_le_iff positive).mpr (Nat.not_le.mpr shorter)
  omega

theorem toString_natCast (value : Nat) : toString (value : Int) = toString value := rfl

theorem toString_neg {value : Nat} (positive : 0 < value) :
    toString (-value : Int) = "-" ++ toString value := by
  have below : ¬(0 : Int) ≤ -value := by omega
  rw [Int.toString_eq_repr, Int.repr_eq_if, if_neg below, Int.neg_neg, Int.toNat_natCast]
  rfl

theorem length_toString_neg {value : Nat} (positive : 0 < value) :
    (toString (-value : Int)).length = (toString value).length + 1 := by
  rw [toString_neg positive, String.length_append, Nat.add_comm]
  rfl

theorem isDigit_of_mem_toString {number : Nat} {character : Char}
    (member : character ∈ (toString number).toList) : character.isDigit = true := by
  rw [toList_toString] at member
  exact Nat.isDigit_of_mem_toDigits (by decide) (by decide) member

theorem natural?_toString (number : Nat) : natural? (toString number).toList = some number := by
  have digits : (toString number).toList.all Char.isDigit = true :=
    List.all_eq_true.mpr fun _ member => isDigit_of_mem_toString member
  have value : numeral (toString number).toList = number := by
    rw [numeral_eq_ofDigitChars, toList_toString, Nat.ofDigitChars_ten_toDigits]
  rw [natural?, digits, value]
  simp

theorem index?_toString {number : Nat} (small : number < bound64) :
    index? (toString number).toList = some number := by
  simp only [index?]
  split
  · rename_i rest signed
    have digit : '+'.isDigit = true := isDigit_of_mem_toString (by rw [signed]; simp)
    exact absurd digit (by decide)
  · rw [natural?_toString]
    simp [small]

/-! ## Fixed widths -/

structure Spells (width value : Nat) (text : List Char) : Prop where
  length : text.length = width
  digits : ∀ character ∈ text, character.isDigit = true
  numeral : numeral text = value

theorem Spells.exists_digit {width value : Nat} {text : List Char}
    (spells : Spells (width + 1) value text) :
    ∃ first rest, text = first :: rest ∧ first.isDigit = true := by
  obtain ⟨first, rest, whole⟩ := List.exists_cons_of_length_eq_add_one spells.length
  exact ⟨first, rest, whole, spells.digits first (by simp [whole])⟩

theorem spells_toString (value : Nat) :
    Spells (toString value).length value (toString value).toList where
  length := String.length_toList
  digits _ := isDigit_of_mem_toString
  numeral := by rw [numeral_eq_ofDigitChars, toList_toString, Nat.ofDigitChars_ten_toDigits]

theorem spells_zeroPadded {width value : Nat} (positive : 0 < width) (small : value < 10 ^ width) :
    Spells width value (zeroPadded width value).toList := by
  have fits : (toString value).length ≤ width := (length_toString_le_iff positive).mpr small
  have text : (zeroPadded width value).toList =
      List.replicate (width - (toString value).length) '0' ++ (toString value).toList := by
    have sign : ¬ (value : Int) < 0 := by omega
    rw [zeroPadded, if_neg sign, Int.natAbs_natCast, padStart, String.toList_append,
      String.toList_ofList]
  rw [text]
  refine ⟨?_, ?_, ?_⟩
  · rw [List.length_append, List.length_replicate, String.length_toList]
    omega
  · intro character member
    rcases List.mem_append.mp member with zero | digit
    · rw [List.eq_of_mem_replicate zero]
      rfl
    · exact isDigit_of_mem_toString digit
  · rw [numeral_eq_ofDigitChars, Nat.ofDigitChars_append, Nat.ofDigitChars_replicate_zero,
      Nat.mul_zero, toList_toString, Nat.ofDigitChars_ten_toDigits]

theorem spells_two (number : Nat) (small : number < 100) :
    Spells 2 number (zeroPadded 2 number).toList :=
  spells_zeroPadded (by decide) small

inductive SpellsInt : Nat → Int → List Char → Prop
  | natural {width value : Nat} {text : List Char} : Spells width value text →
      SpellsInt width value text
  | negative {width value : Nat} {digits : List Char} : 0 < value → Spells width value digits →
      SpellsInt (width + 1) (-value) ('-' :: digits)

theorem spellsInt_zeroPadded {width : Nat} {value : Int} (positive : 0 < width)
    (small : value.natAbs < 10 ^ width) :
    SpellsInt (width + 1) value (zeroPadded (width + 1) value).toList := by
  rcases Int.lt_or_le value 0 with below | nonneg
  · obtain ⟨magnitude, rfl⟩ : ∃ magnitude : Nat, value = -magnitude :=
      ⟨value.natAbs, by omega⟩
    rw [Int.natAbs_neg, Int.natAbs_natCast] at small
    have digits := spells_zeroPadded positive small
    have sign : ¬ (magnitude : Int) < 0 := by omega
    rw [zeroPadded, if_neg sign, Int.natAbs_natCast] at digits
    have text : (zeroPadded (width + 1) (-magnitude)).toList =
        '-' :: (padStart width '0' (toString magnitude)).toList := by
      rw [zeroPadded, if_pos below, Int.natAbs_neg, Int.natAbs_natCast, String.toList_append]
      rfl
    rw [text]
    exact .negative (by omega) digits
  · obtain ⟨magnitude, rfl⟩ := Int.eq_ofNat_of_zero_le nonneg
    rw [Int.natAbs_natCast] at small
    have wide : magnitude < 10 ^ (width + 1) :=
      Nat.lt_of_lt_of_le small (Nat.pow_le_pow_right (by decide) (Nat.le_succ width))
    exact .natural (spells_zeroPadded (Nat.succ_pos width) wide)

/-! ## Order -/

theorem bounds_of_isDigit {character : Char} (digit : character.isDigit = true) :
    48 ≤ character.toNat ∧ character.toNat ≤ 57 := by
  simp only [Char.isDigit, Bool.and_eq_true, decide_eq_true_eq, ge_iff_le,
    UInt32.le_iff_toNat_le] at digit
  exact digit

/-- The first digit counts for a power of ten, and the others spell the rest. -/
theorem Spells.cons {width value : Nat} {first : Char} {rest : List Char}
    (spells : Spells (width + 1) value (first :: rest)) :
    ∃ remainder, Spells width remainder rest ∧
      value = 10 ^ width * (first.toNat - 48) + remainder := by
  have length : rest.length = width := Nat.succ_inj.mp spells.length
  refine ⟨Text.numeral rest, ⟨length, fun other member => ?_, rfl⟩, ?_⟩
  · exact spells.digits other (List.mem_cons_of_mem first member)
  · rw [← spells.numeral, numeral_eq_ofDigitChars, numeral_eq_ofDigitChars, Nat.ofDigitChars_cons,
      Nat.ofDigitChars_eq_ofDigitChars_zero, length, Nat.mul_zero, Nat.zero_add]
    rfl

theorem Spells.lt_pow {width value : Nat} {text : List Char} (spells : Spells width value text) :
    value < 10 ^ width := by
  induction width generalizing value text with
  | zero =>
      have empty : text = [] := List.eq_nil_of_length_eq_zero spells.length
      rw [← spells.numeral, empty]
      decide
  | succ width ih =>
      obtain ⟨first, rest, rfl, digit⟩ := spells.exists_digit
      obtain ⟨remainder, spellsRest, total⟩ := spells.cons
      have small := ih spellsRest
      have least := bounds_of_isDigit digit
      have share : 10 ^ width * (first.toNat - 48) ≤ 10 ^ width * 9 :=
        Nat.mul_le_mul_left _ (by omega)
      rw [Nat.pow_succ]
      omega

theorem leading_lt {width left right low : Nat} (less : left < right) (small : low < 10 ^ width)
    (high : Nat) : 10 ^ width * left + low < 10 ^ width * right + high := by
  have gap : 10 ^ width * (left + 1) ≤ 10 ^ width * right := Nat.mul_le_mul_left _ less
  rw [Nat.mul_succ] at gap
  omega

/-- Texts of one width are compared as numbers: the first digit in which they differ decides. -/
theorem Spells.lt_iff {width left right : Nat} {first second : List Char}
    (spells : Spells width left first) (others : Spells width right second) :
    first < second ↔ left < right := by
  induction width generalizing left right first second with
  | zero =>
      have none : first = [] := List.eq_nil_of_length_eq_zero spells.length
      have neither : second = [] := List.eq_nil_of_length_eq_zero others.length
      have least := spells.lt_pow
      have most := others.lt_pow
      subst none neither
      simp only [List.not_lt_nil, false_iff]
      omega
  | succ width ih =>
      obtain ⟨a, first, rfl, digit⟩ := spells.exists_digit
      obtain ⟨b, second, rfl, other⟩ := others.exists_digit
      obtain ⟨low, spellsFirst, leftTotal⟩ := spells.cons
      obtain ⟨high, spellsSecond, rightTotal⟩ := others.cons
      have lowest := bounds_of_isDigit digit
      have highest := bounds_of_isDigit other
      have lowSmall := spellsFirst.lt_pow
      have highSmall := spellsSecond.lt_pow
      rw [List.cons_lt_cons_iff, ih spellsFirst spellsSecond, leftTotal, rightTotal]
      rcases Nat.lt_trichotomy a.toNat b.toNat with less | same | more
      · have below : a < b := less
        have digits : a.toNat - 48 < b.toNat - 48 := by omega
        exact iff_of_true (.inl below) (leading_lt digits lowSmall high)
      · have equal : a = b := Char.toNat_inj.mp same
        subst equal
        simp
      · have notBelow : ¬ a < b := Nat.not_lt.mpr (Nat.le_of_lt more)
        have differ : a ≠ b := fun equal => absurd more (by simp [equal])
        have digits : b.toNat - 48 < a.toNat - 48 := by omega
        refine iff_of_false ?_ (Nat.not_lt.mpr (Nat.le_of_lt (leading_lt digits highSmall low)))
        rintro (below | ⟨equal, _⟩)
        · exact notBelow below
        · exact differ equal

theorem signed_lt {zeros : Nat} {text others : List Char}
    (digits : ∀ character ∈ text, character.isDigit = true) (longer : zeros < text.length) :
    List.replicate zeros '0' ++ '-' :: others < text := by
  induction zeros generalizing text with
  | zero =>
      obtain ⟨first, rest, rfl⟩ := List.exists_cons_of_length_pos longer
      have digit := bounds_of_isDigit (digits first (by simp))
      have sign : '-' < first := Nat.lt_of_lt_of_le (by decide : '-'.toNat < 48) digit.1
      exact List.cons_lt_cons_iff.mpr (.inl sign)
  | succ zeros ih =>
      obtain ⟨first, rest, rfl⟩ := List.exists_cons_of_length_pos (Nat.zero_lt_of_lt longer)
      have digit := bounds_of_isDigit (digits first (by simp))
      rw [List.replicate_succ, List.cons_append, List.cons_lt_cons_iff]
      rcases Nat.eq_or_lt_of_le digit.1 with same | more
      · refine .inr ⟨Char.toNat_inj.mp same, ih (fun character member => ?_) ?_⟩
        · exact digits character (List.mem_cons_of_mem first member)
        · exact Nat.succ_lt_succ_iff.mp longer
      · exact .inl more

end WhereEditor.Text
