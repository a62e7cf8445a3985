import Mathlib.Data.List.TakeDrop
import Mathlib.Data.List.TakeWhile
import WhereEditor.Proofs.Json.Strings

/-!
The grammar of JSON. Main statement: every text that the standard lets stand for a value is read as
that value, whatever blanks it has and however its strings and numbers are written.
-/

namespace WhereEditor.Json

/-! ## Numbers -/

def IsDigits (text : List Char) : Prop :=
  text ≠ [] ∧ ∀ character ∈ text, character.isDigit = true

inductive IsWhole : List Char → Prop
  | zero : IsWhole ['0']
  | other {first : Char} {rest : List Char} : first ≠ '0' → IsDigits (first :: rest) →
      IsWhole (first :: rest)

inductive IsFraction : List Char → Prop
  | none : IsFraction []
  | digits {text : List Char} : IsDigits text → IsFraction ('.' :: text)

inductive IsExponent : List Char → Prop
  | none : IsExponent []
  | digits {mark : Char} {sign text : List Char} : mark = 'e' ∨ mark = 'E' →
      sign = [] ∨ sign = ['+'] ∨ sign = ['-'] → IsDigits text → IsExponent (mark :: (sign ++ text))

inductive IsNumeral : List Char → Prop
  | mk {sign whole fraction exponent : List Char} : sign = [] ∨ sign = ['-'] → IsWhole whole →
      IsFraction fraction → IsExponent exponent →
      IsNumeral (sign ++ (whole ++ (fraction ++ exponent)))

def NoDigit (rest : List Char) : Prop := ∀ next, rest.head? = some next → next.isDigit = false

def Stops (rest : List Char) : Prop :=
  ∀ next, rest.head? = some next →
    next.isDigit = false ∧ next ≠ '.' ∧ next ≠ 'e' ∧ next ≠ 'E'

theorem Stops.noDigit {rest : List Char} (stops : Stops rest) : NoDigit rest :=
  fun next first => (stops next first).1

theorem noDigit_cons {next : Char} {rest : List Char} (other : next.isDigit = false) :
    NoDigit (next :: rest) := by
  intro first same
  cases same
  exact other

theorem digitsAfter?_digits {text rest : List Char} (run : IsDigits text) (apart : NoDigit rest)
    (mark : List Char) : digitsAfter? mark (text ++ rest) = some (mark ++ text, rest) := by
  have none : rest.takeWhile Char.isDigit = [] ∧ rest.dropWhile Char.isDigit = rest := by
    cases rest with
    | nil => exact ⟨rfl, rfl⟩
    | cons next beyond =>
        have other := apart next rfl
        simp [other]
  have taken : digits (text ++ rest) = (text, rest) := by
    rw [digits, List.span_eq_takeWhile_dropWhile, List.takeWhile_append_of_pos run.2,
      List.dropWhile_append_of_pos run.2, none.1, none.2, List.append_nil]
  have filled : text.isEmpty = false := by simpa using run.1
  simp only [digitsAfter?, taken, filled, Bool.false_eq_true, if_false]

theorem whole?_of_isWhole {text rest : List Char} (written : IsWhole text) (apart : NoDigit rest) :
    whole? (text ++ rest) = some (text, rest) := by
  cases written with
  | zero => rfl
  | @other first others nonzero run =>
      have taken := digitsAfter?_digits run apart []
      simp only [List.cons_append, List.nil_append] at taken ⊢
      simp [whole?, nonzero, taken]

theorem fraction?_of_isFraction {text rest : List Char} (written : IsFraction text)
    (apart : NoDigit rest) (point : rest.head? ≠ some '.') :
    fraction? (text ++ rest) = some (text, rest) := by
  cases written with
  | none =>
      cases rest with
      | nil => rfl
      | cons next beyond =>
          have differs : next ≠ '.' := by simpa using point
          simp [fraction?, differs]
  | digits run => exact digitsAfter?_digits run apart ['.']

theorem exponent?_of_isExponent {text rest : List Char} (written : IsExponent text)
    (stops : Stops rest) : exponent? (text ++ rest) = some (text, rest) := by
  cases written with
  | none =>
      cases rest with
      | nil => rfl
      | cons next beyond =>
          obtain ⟨_, _, small, large⟩ := stops next rfl
          simp [exponent?, small, large]
  | @digits mark sign text marked signed run =>
      obtain ⟨first, others, rfl⟩ := List.exists_cons_of_ne_nil run.1
      have digit : first.isDigit = true := run.2 first (by simp)
      have plus : first ≠ '+' := by rintro rfl; exact absurd digit (by decide)
      have minus : first ≠ '-' := by rintro rfl; exact absurd digit (by decide)
      have taken := digitsAfter?_digits run stops.noDigit (mark :: sign)
      rcases signed with rfl | rfl | rfl <;>
        simpa [exponent?, marked, plus, minus] using taken

theorem IsExponent.noDigit {text rest : List Char} (written : IsExponent text)
    (apart : NoDigit rest) : NoDigit (text ++ rest) := by
  cases written with
  | none => exact apart
  | digits marked => rcases marked with rfl | rfl <;> exact noDigit_cons (by decide)

theorem IsExponent.head_ne {text rest : List Char} (written : IsExponent text)
    (point : rest.head? ≠ some '.') : (text ++ rest).head? ≠ some '.' := by
  cases written with
  | none => exact point
  | digits marked => rcases marked with rfl | rfl <;> simp

theorem IsFraction.noDigit {text rest : List Char} (written : IsFraction text)
    (apart : NoDigit rest) : NoDigit (text ++ rest) := by
  cases written with
  | none => exact apart
  | digits => exact noDigit_cons (by decide)

theorem IsWhole.exists_digit {text : List Char} (written : IsWhole text) :
    ∃ first rest, text = first :: rest ∧ first.isDigit = true := by
  cases written with
  | zero => exact ⟨'0', [], rfl, by decide⟩
  | other _ run => exact ⟨_, _, rfl, run.2 _ (by simp)⟩

theorem number?_of_isNumeral {text rest : List Char} (written : IsNumeral text)
    (stops : Stops rest) : number? (text ++ rest) = some (number (String.ofList text), rest) := by
  obtain ⟨signed, whole, fraction, exponent⟩ := written
  rename_i sign wholeText fractionText exponentText
  have point : rest.head? ≠ some '.' := fun first => (stops _ first).2.1 rfl
  have last := exponent?_of_isExponent exponent stops
  have middle := fraction?_of_isFraction fraction (exponent.noDigit stops.noDigit)
    (exponent.head_ne point)
  have first := whole?_of_isWhole whole (fraction.noDigit (exponent.noDigit stops.noDigit))
  obtain ⟨digit, others, front, isDigit⟩ := whole.exists_digit
  have unsigned : digit ≠ '-' := by rintro rfl; exact absurd isDigit (by decide)
  rcases signed with rfl | rfl
  · subst front
    simp only [List.cons_append, List.nil_append, List.append_assoc] at first ⊢
    simp [number?, unsigned, first, middle, last, String.append_assoc]
  · simp only [List.cons_append, List.nil_append, List.append_assoc, number?, first, middle, last,
      bind, Option.bind_some]

/-! ## Values -/

def IsGap (gap : List Char) : Prop :=
  ∀ character ∈ gap, character ∈ [' ', '\t', '\n', '\r']

theorem isGap_nil : IsGap [] := fun _ member => absurd member List.not_mem_nil

inductive Phrase where
  | value (value : Json)
  /-- A value with the blanks around it, as a whole text is. -/
  | slot (value : Json)
  | items (items : List Json)
  | member (key : Option String) (value : Json)
  | members (members : List (Option String × Json))

inductive Spells : Phrase → List Char → Prop
  | null : Spells (.value .null) ['n', 'u', 'l', 'l']
  | yes : Spells (.value (.bool true)) ['t', 'r', 'u', 'e']
  | no : Spells (.value (.bool false)) ['f', 'a', 'l', 's', 'e']
  | number {text : List Char} : IsNumeral text → Spells (.value (.number (String.ofList text))) text
  | string {text : Option String} {written : List Char} : IsString text written →
      Spells (.value (.string text)) written
  | noItems {gap : List Char} : IsGap gap → Spells (.value (.array [])) ('[' :: (gap ++ [']']))
  | array {items : List Json} {text : List Char} : Spells (.items items) text →
      Spells (.value (.array items)) ('[' :: (text ++ [']']))
  | noMembers {gap : List Char} : IsGap gap → Spells (.value (.object [])) ('{' :: (gap ++ ['}']))
  | object {members : List (Option String × Json)} {text : List Char} :
      Spells (.members members) text → Spells (.value (.object members)) ('{' :: (text ++ ['}']))
  | slot {value : Json} {before text after : List Char} : IsGap before →
      Spells (.value value) text → IsGap after → Spells (.slot value) (before ++ (text ++ after))
  | lastItem {item : Json} {text : List Char} : Spells (.slot item) text →
      Spells (.items [item]) text
  | item {item : Json} {items : List Json} {text others : List Char} : Spells (.slot item) text →
      Spells (.items items) others → Spells (.items (item :: items)) (text ++ ',' :: others)
  | member {key : Option String} {value : Json} {before name after text : List Char} :
      IsGap before → IsString key name → IsGap after → Spells (.slot value) text →
      Spells (.member key value) (before ++ (name ++ (after ++ ':' :: text)))
  | lastMember {key : Option String} {value : Json} {text : List Char} :
      Spells (.member key value) text → Spells (.members [(key, value)]) text
  | nextMember {key : Option String} {value : Json} {members : List (Option String × Json)}
      {text others : List Char} : Spells (.member key value) text →
      Spells (.members members) others → Spells (.members ((key, value) :: members))
        (text ++ ',' :: others)

/-! ## Blanks -/

def Closes (rest : List Char) : Prop :=
  ∀ next, rest.head? = some next → next = ',' ∨ next = ']' ∨ next = '}'

def Starts (first : Char) : Prop := isSpace first = false ∧ first ≠ ']' ∧ first ≠ '}'

instance (first : Char) : Decidable (Starts first) := inferInstanceAs (Decidable (_ ∧ _))

theorem skipSpace_gap {gap : List Char} (blank : IsGap gap) (rest : List Char) :
    skipSpace (gap ++ rest) = skipSpace rest := by
  have table : ∀ character ∈ [' ', '\t', '\n', '\r'], isSpace character = true := by simp [isSpace]
  exact List.dropWhile_append_of_pos fun character member => table _ (blank character member)

theorem skipSpace_cons {first : Char} (visible : isSpace first = false) (rest : List Char) :
    skipSpace (first :: rest) = first :: rest :=
  List.dropWhile_cons_of_neg (by simp [visible])

theorem Closes.skipSpace_eq {rest : List Char} (closes : Closes rest) : skipSpace rest = rest := by
  cases rest with
  | nil => rfl
  | cons next beyond =>
      rcases closes next rfl with rfl | rfl | rfl <;> exact skipSpace_cons (by decide) beyond

theorem Closes.stops_append {rest gap : List Char} (closes : Closes rest) (blank : IsGap gap) :
    Stops (gap ++ rest) := by
  intro next first
  have table : ∀ character ∈ [' ', '\t', '\n', '\r', ',', ']', '}'], character.isDigit = false ∧
      character ≠ '.' ∧ character ≠ 'e' ∧ character ≠ 'E' := by simp [Char.isDigit]
  apply table
  cases gap with
  | nil => rcases closes next first with rfl | rfl | rfl <;> decide
  | cons blankFirst others =>
      cases first
      exact List.mem_append_left [',', ']', '}'] (blank next (by simp))

theorem valueWithin?_gap {gap : List Char} (blank : IsGap gap) (bound : Nat) (text : List Char) :
    valueWithin? bound (gap ++ text) = valueWithin? bound text := by
  cases bound with
  | zero => rfl
  | succ bound => rw [valueWithin?, valueWithin?, skipSpace_gap blank]

theorem starts_of_isDigit {first : Char} (digit : first.isDigit = true) : Starts first := by
  have differs (other : Char) (mark : other.isDigit = false) : first ≠ other := by
    rintro rfl
    rw [digit] at mark
    cases mark
  refine ⟨?_, differs ']' (by decide), differs '}' (by decide)⟩
  simp [isSpace, differs ' ' (by decide), differs '\t' (by decide), differs '\n' (by decide),
    differs '\r' (by decide)]

theorem IsNumeral.exists_first {text : List Char} (written : IsNumeral text) :
    ∃ first rest, text = first :: rest ∧ (first = '-' ∨ first.isDigit = true) := by
  obtain ⟨signed, whole, _, _⟩ := written
  obtain ⟨digit, others, rfl, isDigit⟩ := whole.exists_digit
  rcases signed with rfl | rfl
  · exact ⟨digit, _, rfl, .inr isDigit⟩
  · exact ⟨'-', _, rfl, .inl rfl⟩

theorem IsNumeral.starts {first : Char} (leads : first = '-' ∨ first.isDigit = true) :
    Starts first := by
  rcases leads with rfl | digit
  · decide
  · exact starts_of_isDigit digit

theorem Spells.exists_start {phrase : Phrase} {text : List Char} (spells : Spells phrase text) :
    ∃ gap first rest, text = gap ++ first :: rest ∧ IsGap gap ∧ Starts first := by
  induction spells with
  | null | yes | no | noItems | array | noMembers | object =>
      exact ⟨[], _, _, rfl, isGap_nil, by decide⟩
  | number numeral =>
      obtain ⟨first, rest, rfl, leads⟩ := numeral.exists_first
      exact ⟨[], first, rest, rfl, isGap_nil, IsNumeral.starts leads⟩
  | string written =>
      cases written <;> exact ⟨[], '"', _, rfl, isGap_nil, by decide⟩
  | @slot _ before _ after blank _ _ ih =>
      obtain ⟨gap, first, rest, rfl, inner, starts⟩ := ih
      refine ⟨before ++ gap, first, rest ++ after, by simp, ?_, starts⟩
      exact fun character member => (List.mem_append.mp member).elim (blank _) (inner _)
  | lastItem _ ih | lastMember _ ih => exact ih
  | @item _ _ _ others _ _ ih | @nextMember _ _ _ _ others _ _ ih =>
      obtain ⟨gap, first, rest, rfl, inner, starts⟩ := ih
      exact ⟨gap, first, rest ++ ',' :: others, by simp, inner, starts⟩
  | @member _ _ before _ _ _ blank name =>
      cases name <;>
        exact ⟨before, '"', _, by simp only [List.cons_append]; rfl, blank, by decide⟩

/-! ## Reading -/

variable {bound : Nat} {text rest : List Char}

theorem valueWithin?_number {value : Json} (numeral : IsNumeral text)
    (read : number? (text ++ rest) = some (value, rest)) :
    valueWithin? (bound + 1) (text ++ rest) = some (value, rest) := by
  obtain ⟨first, others, rfl, leads⟩ := numeral.exists_first
  have differs (other : Char) (mark : ¬(other = '-' ∨ other.isDigit = true)) : first ≠ other := by
    rintro rfl
    exact mark leads
  have quote := differs '"' (by decide)
  have bracket := differs '[' (by decide)
  have brace := differs '{' (by decide)
  have n := differs 'n' (by decide)
  have t := differs 't' (by decide)
  have f := differs 'f' (by decide)
  rw [List.cons_append] at read ⊢
  rw [valueWithin?, skipSpace_cons (IsNumeral.starts leads).1]
  simp [quote, bracket, brace, n, t, f, read]

theorem valueWithin?_string {string : Option String} {body : List Char}
    (read : stringBody? body = some (string, rest)) :
    valueWithin? (bound + 1) ('"' :: body) = some (.string string, rest) := by
  rw [valueWithin?, skipSpace_cons (by decide)]
  simp [read]

theorem valueWithin?_noItems {gap : List Char} (blank : IsGap gap) :
    valueWithin? (bound + 1) ('[' :: (gap ++ ']' :: rest)) = some (array [], rest) := by
  rw [valueWithin?, skipSpace_cons (by decide)]
  simp [skipSpace_gap blank, skipSpace_cons (by decide : isSpace ']' = false)]

theorem valueWithin?_items {items : List Json} {gap others : List Char} {first : Char}
    (blank : IsGap gap) (starts : Starts first) (whole : text = gap ++ first :: others)
    (read : itemsWithin? bound text = some (items, rest)) :
    valueWithin? (bound + 1) ('[' :: text) = some (array items, rest) := by
  have visible : skipSpace text = first :: others := by
    rw [whole, skipSpace_gap blank, skipSpace_cons starts.1]
  rw [valueWithin?, skipSpace_cons (by decide)]
  simp [visible, starts.2.1, read]

theorem valueWithin?_noMembers {gap : List Char} (blank : IsGap gap) :
    valueWithin? (bound + 1) ('{' :: (gap ++ '}' :: rest)) = some (object [], rest) := by
  rw [valueWithin?, skipSpace_cons (by decide)]
  simp [skipSpace_gap blank, skipSpace_cons (by decide : isSpace '}' = false)]

theorem valueWithin?_members {members : List (Option String × Json)} {gap others : List Char}
    {first : Char} (blank : IsGap gap) (starts : Starts first) (whole : text = gap ++ first :: others)
    (read : membersWithin? bound text = some (members, rest)) :
    valueWithin? (bound + 1) ('{' :: text) = some (object members, rest) := by
  have visible : skipSpace text = first :: others := by
    rw [whole, skipSpace_gap blank, skipSpace_cons starts.1]
  rw [valueWithin?, skipSpace_cons (by decide)]
  simp [visible, starts.2.2, read]

theorem itemsWithin?_last {item : Json} {gap : List Char} (blank : IsGap gap)
    (read : valueWithin? bound text = some (item, gap ++ ']' :: rest)) :
    itemsWithin? (bound + 1) text = some ([item], rest) := by
  rw [itemsWithin?, read]
  simp [skipSpace_gap blank, skipSpace_cons (by decide : isSpace ']' = false)]

theorem itemsWithin?_next {item : Json} {items : List Json} {gap others : List Char}
    (blank : IsGap gap) (read : valueWithin? bound text = some (item, gap ++ ',' :: others))
    (later : itemsWithin? bound others = some (items, rest)) :
    itemsWithin? (bound + 1) text = some (item :: items, rest) := by
  rw [itemsWithin?, read]
  simp [skipSpace_gap blank, skipSpace_cons (by decide : isSpace ',' = false), later]

def membersAfter? (bound : Nat) (member : Option String × Json) :
    List Char → Option (List (Option String × Json) × List Char)
  | '}' :: beyond => some ([member], beyond)
  | ',' :: rest => do
      let (members, beyond) ← membersWithin? bound rest
      some (member :: members, beyond)
  | _ => none

theorem membersWithin?_member {key : Option String} {value : Json}
    {before name after slot gap : List Char} (blank : IsGap before) (named : IsString key name)
    (apart : IsGap after) (behind : IsGap gap) (closes : Closes rest)
    (read : valueWithin? bound slot = some (value, gap ++ rest)) :
    membersWithin? (bound + 1) (before ++ (name ++ (after ++ ':' :: slot))) =
      membersAfter? bound (key, value) rest := by
  obtain ⟨body, quoted, string⟩ := named.exists_body (after ++ ':' :: slot)
  rw [membersWithin?, skipSpace_gap blank, quoted, skipSpace_cons (by decide)]
  simp only [string, bind, Option.bind_some, skipSpace_gap apart,
    skipSpace_cons (by decide : isSpace ':' = false), read, skipSpace_gap behind,
    closes.skipSpace_eq]
  rfl

/-- What the reader makes of a part, with enough bound left for it. -/
def ReadAs : Phrase → List Char → Prop
  | .value value, text => ∀ bound rest, 2 * text.length ≤ bound + 1 → Stops rest →
      valueWithin? (bound + 1) (text ++ rest) = some (value, rest)
  | .slot value, text => ∀ bound rest, 2 * text.length ≤ bound → Closes rest →
      ∃ gap, IsGap gap ∧ valueWithin? bound (text ++ rest) = some (value, gap ++ rest)
  | .items items, text => ∀ bound rest, 2 * text.length < bound →
      itemsWithin? bound (text ++ ']' :: rest) = some (items, rest)
  | .member key value, text => ∀ bound rest, 2 * text.length ≤ bound → Closes rest →
      membersWithin? (bound + 1) (text ++ rest) = membersAfter? bound (key, value) rest
  | .members members, text => ∀ bound rest, 2 * text.length < bound →
      membersWithin? bound (text ++ '}' :: rest) = some (members, rest)

theorem closes_cons {next : Char} (ends : next = ',' ∨ next = ']' ∨ next = '}') :
    Closes (next :: rest) := by
  intro first same
  cases same
  exact ends

/-- Reading follows the grammar. -/
theorem Spells.readAs {phrase : Phrase} {text : List Char} (spells : Spells phrase text) :
    ReadAs phrase text := by
  induction spells with
  | null | yes | no =>
      intro bound rest _ _
      rfl
  | number numeral =>
      intro bound rest _ stops
      exact valueWithin?_number numeral (number?_of_isNumeral numeral stops)
  | string written =>
      intro bound rest _ _
      obtain ⟨body, quoted, read⟩ := written.exists_body rest
      rw [quoted]
      exact valueWithin?_string read
  | noItems blank =>
      intro bound rest _ _
      rw [List.cons_append, List.append_assoc]
      exact valueWithin?_noItems blank
  | @array items text inner ih =>
      intro bound rest enough _
      obtain ⟨gap, first, others, whole, blank, starts⟩ := inner.exists_start
      simp only [List.length_cons, List.length_append, List.length_nil] at enough
      rw [List.cons_append, List.append_assoc]
      have further : text ++ ']' :: rest = gap ++ first :: (others ++ ']' :: rest) := by simp [whole]
      exact valueWithin?_items blank starts further (ih bound rest (by omega))
  | noMembers blank =>
      intro bound rest _ _
      rw [List.cons_append, List.append_assoc]
      exact valueWithin?_noMembers blank
  | @object members text inner ih =>
      intro bound rest enough _
      obtain ⟨gap, first, others, whole, blank, starts⟩ := inner.exists_start
      simp only [List.length_cons, List.length_append, List.length_nil] at enough
      rw [List.cons_append, List.append_assoc]
      have further : text ++ '}' :: rest = gap ++ first :: (others ++ '}' :: rest) := by simp [whole]
      exact valueWithin?_members blank starts further (ih bound rest (by omega))
  | @slot value before text after blank inner behind ih =>
      intro bound rest enough closes
      obtain ⟨gap, first, others, whole, _⟩ := inner.exists_start
      -- The bound is counted down at every value, and a value takes up a character at least.
      have filled : 0 < text.length := by
        rw [whole, List.length_append, List.length_cons]
        omega
      simp only [List.length_append] at enough
      obtain ⟨less, rfl⟩ := Nat.exists_eq_add_one_of_ne_zero (by omega : bound ≠ 0)
      refine ⟨after, behind, ?_⟩
      rw [List.append_assoc, List.append_assoc, valueWithin?_gap blank]
      exact ih less (after ++ rest) (by omega) (closes.stops_append behind)
  | lastItem inner ih =>
      intro bound rest enough
      obtain ⟨less, rfl⟩ := Nat.exists_eq_add_one_of_ne_zero (by omega : bound ≠ 0)
      obtain ⟨gap, blank, read⟩ := ih less (']' :: rest) (by omega) (closes_cons (by decide))
      exact itemsWithin?_last blank read
  | @item item items text others inner later ih ihLater =>
      intro bound rest enough
      simp only [List.length_append, List.length_cons] at enough
      obtain ⟨less, rfl⟩ := Nat.exists_eq_add_one_of_ne_zero (by omega : bound ≠ 0)
      obtain ⟨gap, blank, read⟩ := ih less (',' :: (others ++ ']' :: rest)) (by omega)
        (closes_cons (by decide))
      rw [List.append_assoc, List.cons_append]
      exact itemsWithin?_next blank read (ihLater less rest (by omega))
  | member blank name apart inner ih =>
      intro bound rest enough closes
      simp only [List.length_append, List.length_cons] at enough
      obtain ⟨gap, behind, read⟩ := ih bound rest (by omega) closes
      simp only [List.append_assoc, List.cons_append]
      exact membersWithin?_member blank name apart behind closes read
  | lastMember inner ih =>
      intro bound rest enough
      obtain ⟨less, rfl⟩ := Nat.exists_eq_add_one_of_ne_zero (by omega : bound ≠ 0)
      rw [ih less ('}' :: rest) (by omega) (closes_cons (by decide))]
      rfl
  | @nextMember key value members text others inner later ih ihLater =>
      intro bound rest enough
      simp only [List.length_append, List.length_cons] at enough
      obtain ⟨less, rfl⟩ := Nat.exists_eq_add_one_of_ne_zero (by omega : bound ≠ 0)
      rw [List.append_assoc, List.cons_append,
        ih less (',' :: (others ++ '}' :: rest)) (by omega) (closes_cons (by decide)), membersAfter?,
        ihLater less rest (by omega)]
      rfl

theorem ofText?_of_spells {text : String} {value : Json}
    (spells : Spells (.slot value) text.toList) : ofText? text = some value := by
  have none : Closes [] := fun _ member => absurd member (by simp)
  obtain ⟨gap, blank, read⟩ := spells.readAs (2 * text.toList.length + 2) [] (by omega) none
  rw [List.append_nil, List.append_nil] at read
  have behind : skipSpace gap = [] := by
    have empty := skipSpace_gap blank []
    rwa [List.append_nil] at empty
  simp only [ofText?, read, bind, Option.bind_some, behind, List.isEmpty_nil, if_true]

/-! ## Writing -/

theorem Spells.bare {value : Json} {text : List Char} (spells : Spells (.value value) text) :
    Spells (.slot value) text := by
  have whole := Spells.slot isGap_nil spells isGap_nil
  rwa [List.nil_append, List.append_nil] at whole

theorem toList_comma (first second : String) :
    (first ++ "," ++ second).toList = first.toList ++ ',' :: second.toList := by
  rw [String.toList_append, String.toList_append, List.append_assoc]
  rfl

theorem spells_text (text : String) : Spells (.value (.text text)) (Json.text text).render.toList := by
  rw [Json.text, render]
  exact .string (isString_quote text)

theorem spells_renderItems {first : Json} {others : List Json}
    (each : ∀ item ∈ first :: others, Spells (.value item) item.render.toList) :
    Spells (.items (first :: others)) (",".intercalate (renderItems (first :: others))).toList := by
  induction others generalizing first with
  | nil => exact .lastItem (each first (by simp)).bare
  | cons second others ih =>
      have later := ih fun item member => each item (List.mem_cons_of_mem first member)
      rw [renderItems, renderItems, String.intercalate_cons_cons, toList_comma]
      exact .item (each first (by simp)).bare later

theorem spells_array {items : List Json}
    (each : ∀ item ∈ items, Spells (.value item) item.render.toList) :
    Spells (.value (.array items)) (Json.array items).render.toList := by
  have brackets : (Json.array items).render.toList =
      '[' :: ((",".intercalate (renderItems items)).toList ++ [']']) := by
    rw [render, String.toList_append, String.toList_append]
    rfl
  rw [brackets]
  cases items with
  | nil => exact .noItems isGap_nil
  | cons first others => exact .array (spells_renderItems each)

theorem spells_member {key : String} {value : Json}
    (written : Spells (.value value) value.render.toList) :
    Spells (.member (some key) value) (quote? (some key) ++ ":" ++ value.render).toList := by
  have colon : ":".toList = [':'] := rfl
  rw [String.toList_append, String.toList_append, colon, List.append_assoc, List.singleton_append]
  have member := Spells.member isGap_nil (isString_quote key) isGap_nil written.bare
  rwa [List.nil_append, List.nil_append] at member

theorem spells_renderMembers {first : String × Json} {others : List (String × Json)}
    (each : ∀ member ∈ first :: others, Spells (.value member.2) member.2.render.toList) :
    let members := (first :: others).map fun (key, value) => (some key, value)
    Spells (.members members) (",".intercalate (renderMembers members)).toList := by
  induction others generalizing first with
  | nil => exact .lastMember (spells_member (each first (by simp)))
  | cons second others ih =>
      have later := ih fun member among => each member (List.mem_cons_of_mem first among)
      simp only [List.map_cons, renderMembers, String.intercalate_cons_cons, toList_comma] at later ⊢
      exact .nextMember (spells_member (each first (by simp))) later

theorem spells_object (members : List (String × Json))
    (each : ∀ member ∈ members, Spells (.value member.2) member.2.render.toList) :
    let object := Json.object (members.map fun (key, value) => (some key, value))
    Spells (.value object) object.render.toList := by
  intro object
  have braces : object.render.toList = '{' :: ((",".intercalate (renderMembers
      (members.map fun (key, value) => (some key, value)))).toList ++ ['}']) := by
    rw [render, String.toList_append, String.toList_append]
    rfl
  rw [braces]
  cases members with
  | nil => exact .noMembers isGap_nil
  | cons first others => exact .object (spells_renderMembers each)

end WhereEditor.Json
