import WhereEditor.Proofs.Time.Stamp
import WhereEditor.Time.DateText

/-!
What the elements of a layout take from a text. Main statements: a fraction of one to nine digits and an
offset are read as what they spell; a text that starts with three digits is no mail date.
-/

namespace WhereEditor.Time

open Text

/-! ## Fractions -/

/-- How nanoseconds can be written behind the seconds: not at all if there are none, or as a point and
up to nine digits, of which the first counts tenths. -/
inductive IsFraction (nano : Nat) : String → Prop
  | whole : nano = 0 → IsFraction nano ""
  | digits {count value : Nat} : 1 ≤ count → count ≤ 9 → value < 10 ^ count →
      nano = value * 10 ^ (9 - count) → IsFraction nano ("." ++ zeroPadded count value)

theorem fraction?_of_isFraction {nano : Nat} {fraction : String} {rest : List Char}
    (written : IsFraction nano fraction) (ends : Ends rest) :
    fraction? (fraction.toList ++ rest) = some (nano, rest) := by
  cases written with
  | whole zero =>
      subst zero
      cases rest with
      | nil => rfl
      | cons next beyond =>
          have mark := (ends next rfl).2
          simp [fraction?, mark]
  | @digits count value least most small total =>
      have spells := spells_zeroPadded least small
      have point : ("." ++ zeroPadded count value).toList ++ rest =
          '.' :: ((zeroPadded count value).toList ++ rest) := by
        rw [String.toList_append]
        rfl
      rw [point, total, fraction?_of_spells spells least most ends]

/-! ## Offsets -/

inductive IsOffset : Int → String → Prop
  | utc : IsOffset 0 "Z"
  | ahead {hours minutes : Nat} : hours < 24 → minutes < 60 →
      IsOffset (hours * 3600 + minutes * 60 : Nat)
        ("+" ++ zeroPadded 2 hours ++ ":" ++ zeroPadded 2 minutes)
  | behind {hours minutes : Nat} : hours < 24 → minutes < 60 →
      IsOffset (-(hours * 3600 + minutes * 60 : Nat))
        ("-" ++ zeroPadded 2 hours ++ ":" ++ zeroPadded 2 minutes)

theorem IsOffset.bounds {east : Int} {suffix : String} (written : IsOffset east suffix) :
    -86400 < east ∧ east < 86400 := by
  cases written <;> omega

theorem clockOffset?_of_lt {hours minutes : Nat} (hour : hours < 24) (minute : minutes < 60) :
    clockOffset? true ((zeroPadded 2 hours).toList ++ ':' :: (zeroPadded 2 minutes).toList) =
      some (((hours * 3600 + minutes * 60 : Nat) : Int), []) := by
  have first := spells_two hours (by omega)
  have second := spells_two minutes (by omega)
  have last := number?_full second []
  rw [List.append_nil] at last
  simp only [clockOffset?, number?_full first, expect?, last, bind, Option.bind_some, if_true,
    minute, hour, and_self]

theorem readOffset?_of_isOffset {east : Int} {suffix : String} (written : IsOffset east suffix) :
    Element.readOffset? suffix.toList = some (east, []) := by
  cases written with
  | utc => rfl
  | ahead hour minute => simp [Element.readOffset?, clockOffset?_of_lt hour minute]
  | behind hour minute => simp [Element.readOffset?, clockOffset?_of_lt hour minute]

theorem ends_of_isOffset {east : Int} {suffix : String} (written : IsOffset east suffix) :
    Ends suffix.toList := by
  cases written with
  | utc => exact ends_cons (by decide)
  | ahead => simpa using ends_cons (by decide)
  | behind => simpa using ends_cons (by decide)

/-! ## Numbers in layouts without an offset -/

namespace Layout

variable {value : Nat} {text rest : List Char} {later : Layout} {reading : Reading}

theorem trimStart_of_spells {width : Nat} (spells : Spells (width + 1) value text) :
    trimStart (text ++ rest) = text ++ rest := by
  obtain ⟨first, others, rfl, digit⟩ := spells.exists_digit
  exact List.dropWhile_cons_of_neg (by simp [isBlank_of_isDigit digit])

theorem readFrom?_year (spells : Spells 4 value text) :
    readFrom? (.year :: later) reading (text ++ rest) =
      readFrom? later { reading with year := value } rest := by
  have number : number? 1 4 (text ++ rest) = some (value, rest) :=
    number?_of_spells spells (by decide) (by decide) (by simp)
  have unsigned : year? (text ++ rest) = some ((value : Int), rest) := by
    obtain ⟨first, others, rfl, digit⟩ := spells.exists_digit
    have minus : first ≠ '-' := by rintro rfl; exact absurd digit (by decide)
    have plus : first ≠ '+' := by rintro rfl; exact absurd digit (by decide)
    rw [List.cons_append] at number ⊢
    simp [year?, minus, plus, number]
  rw [readFrom?, Element.read?, trimStart_of_spells spells, unsigned]
  rfl

theorem readFrom?_short (component : Component) (spells : Spells 2 value text) :
    readFrom? (.short component :: later) reading (text ++ rest) =
      readFrom? later (component.put value reading) rest := by
  have number : number? 1 2 (text ++ rest) = some (value, rest) :=
    number?_of_spells spells (by decide) (by decide) (by simp)
  rw [readFrom?, Element.read?, trimStart_of_spells spells, number]
  rfl

theorem readFrom?_fraction {nano : Nat} {fraction : String} (written : IsFraction nano fraction)
    (ends : Ends rest) :
    readFrom? (.fraction :: later) reading (fraction.toList ++ rest) =
      readFrom? later { reading with fraction := nano } rest := by
  rw [readFrom?, Element.read?, fraction?_of_isFraction written ends]
  rfl

theorem readFrom?_offset {east : Int} {suffix : String} (written : IsOffset east suffix) :
    readFrom? [.offset] reading suffix.toList = some { reading with offset := some east } := by
  rw [readFrom?, Element.read?, readOffset?_of_isOffset written]
  rfl

end Layout

/-! ## Mail dates -/

theorem toLower_of_isDigit {character : Char} (digit : character.isDigit = true) :
    character.toLower = character := by
  have code := bounds_of_isDigit digit
  refine dif_neg fun capital => ?_
  have least : 65 ≤ character.toNat := capital.1
  omega

namespace Mail

theorem name?_eq_none {names : List String} {first : Char} {rest : List Char}
    (other : ∀ name ∈ names, name.toList.head? ≠ some first.toLower) :
    name? names (first :: rest) = none := by
  rw [name?, Option.map_eq_none_iff, List.findIdx?_eq_none_iff]
  intro name member
  refine beq_eq_false_iff_ne.mpr fun same => other name member ?_
  rw [same, String.toList_ofList]
  rfl

theorem isDigit_head_dayNames : ∀ name ∈ dayNames, name.toList.head?.any Char.isDigit = false := by
  decide

theorem read?_eq_none {text : List Char} (unnamed : name? dayNames text = none)
    (joined : ∀ day rest, number? 1 2 (trimStart text) = some (day, rest) → blanks? rest = none) :
    read? text = none := by
  rw [read?, unnamed]
  change (number? 1 2 (trimStart text)).bind _ = none
  refine Option.bind_eq_none_iff.mpr ?_
  rintro ⟨day, rest⟩ found
  change (blanks? rest).bind _ = none
  rw [joined day rest found, Option.bind_none]

/-- The day of a month has at most two digits, and blanks follow it. -/
theorem read?_of_digits {first second third : Char} {rest : List Char}
    (digits : ∀ character ∈ [first, second, third], character.isDigit = true) :
    read? (first :: second :: third :: rest) = none := by
  obtain ⟨one, two, three⟩ : first.isDigit = true ∧ second.isDigit = true ∧
      third.isDigit = true := by
    simpa using digits
  have unnamed : name? dayNames (first :: second :: third :: rest) = none := by
    refine name?_eq_none fun name member starts => ?_
    have letter := isDigit_head_dayNames name member
    rw [starts, toLower_of_isDigit one, Option.any_some, one] at letter
    exact absurd letter (by decide)
  have trimmed : trimStart (first :: second :: third :: rest) = first :: second :: third :: rest :=
    List.dropWhile_cons_of_neg (by simp [isBlank_of_isDigit one])
  have day : number? 1 2 (first :: second :: third :: rest) =
      some (numeral [first, second], third :: rest) := by
    simp [number?, one, two]
  have gap : blanks? (third :: rest) = none := by
    rw [blanks?, isBlank_of_isDigit three]
    rfl
  refine read?_eq_none unnamed fun number later found => ?_
  rw [trimmed, day] at found
  cases found
  exact gap

end Mail

end WhereEditor.Time
