import WhereEditor.Text.Character
import WhereEditor.Proofs.Text.Decimal

/-!
Texts without blanks at their ends. Main statements: trimming leaves them as they are, and takes away the
blanks around them.
-/

namespace WhereEditor.Text

theorem isBlank_of_isDigit {character : Char} (digit : character.isDigit = true) :
    isBlank character = false := by
  have code := bounds_of_isDigit digit
  simp only [isBlank, Bool.or_eq_false_iff, Bool.and_eq_false_iff, decide_eq_false_iff_not,
    beq_eq_false_iff_ne]
  omega

def EndsVisible (text : List Char) : Prop :=
  ∃ before last, text = before ++ [last] ∧ isBlank last = false

theorem EndsVisible.append {text : List Char} (ends : EndsVisible text) (before : List Char) :
    EndsVisible (before ++ text) := by
  obtain ⟨inner, last, rfl, visible⟩ := ends
  exact ⟨before ++ inner, last, (List.append_assoc _ _ _).symm, visible⟩

theorem EndsVisible.cons {text : List Char} (ends : EndsVisible text) (first : Char) :
    EndsVisible (first :: text) :=
  ends.append [first]

theorem Spells.endsVisible {width value : Nat} {text : List Char}
    (spells : Spells (width + 1) value text) : EndsVisible text := by
  rcases List.eq_nil_or_concat text with none | ⟨before, last, whole⟩
  · have length := spells.length
    rw [none] at length
    exact absurd length (by simp)
  · rw [List.concat_eq_append] at whole
    have digit := spells.digits last (by simp [whole])
    exact ⟨before, last, whole, isBlank_of_isDigit digit⟩

theorem EndsVisible.trimEnd_eq {text : List Char} (ends : EndsVisible text) :
    trimEnd text = text := by
  obtain ⟨before, last, rfl, visible⟩ := ends
  rw [trimEnd, List.reverse_concat, List.dropWhile_cons_of_neg (by simp [visible]),
    List.reverse_cons, List.reverse_reverse]

theorem EndsVisible.intercalate {lines : List String} (inhabited : lines ≠ [])
    (ends : ∀ line ∈ lines, EndsVisible line.toList) (separator : String) :
    EndsVisible (separator.intercalate lines).toList := by
  induction lines with
  | nil => exact absurd rfl inhabited
  | cons line later ih =>
      obtain ⟨here, further⟩ := List.forall_mem_cons.mp ends
      cases later with
      | nil => rwa [String.intercalate_singleton]
      | cons next others =>
          rw [String.intercalate_cons_cons, String.toList_append]
          exact (ih (List.cons_ne_nil _ _) further).append _

theorem trim_eq_self {text : List Char} (starts : ∀ first, text.head? = some first →
    isBlank first = false) (ends : EndsVisible text) : trim text = text := by
  have start : trimStart text = text := by
    cases text with
    | nil => rfl
    | cons first rest => exact List.dropWhile_cons_of_neg (by simp [starts first rfl])
  rw [trim, start, ends.trimEnd_eq]

theorem trimEnd_append_blank {after : List Char} (blank : ∀ character ∈ after, isBlank character = true)
    (text : List Char) : trimEnd (text ++ after) = trimEnd text := by
  rw [trimEnd, List.reverse_append, List.dropWhile_append_of_pos fun character member =>
    blank character (List.mem_reverse.mp member), trimEnd]

theorem trim_cons_of_visible {first : Char} (visible : isBlank first = false) (rest : List Char) :
    trim (first :: rest) = first :: trimEnd rest := by
  have start : trimStart (first :: rest) = first :: rest :=
    List.dropWhile_cons_of_neg (by simp [visible])
  rw [trim, start, trimEnd, List.reverse_cons, List.dropWhile_append]
  split
  · rename_i blank
    rw [List.dropWhile_cons_of_neg (by simp [visible]), trimEnd, List.isEmpty_iff.mp blank]
    rfl
  · rw [List.reverse_append, trimEnd]
    rfl

theorem trim_surrounded {before text after : List Char}
    (blankBefore : ∀ character ∈ before, isBlank character = true)
    (blankAfter : ∀ character ∈ after, isBlank character = true)
    (starts : ∀ first, text.head? = some first → isBlank first = false) (ends : EndsVisible text) :
    trim (before ++ text ++ after) = text := by
  have start : trimStart (before ++ text ++ after) = text ++ after := by
    rw [trimStart, List.append_assoc, List.dropWhile_append_of_pos blankBefore]
    obtain ⟨inner, last, rfl, visible⟩ := ends
    cases inner with
    | nil => exact List.dropWhile_cons_of_neg (by simp [visible])
    | cons first others => exact List.dropWhile_cons_of_neg (by simp [starts first rfl])
  rw [trim, start, trimEnd_append_blank blankAfter, ends.trimEnd_eq]

end WhereEditor.Text
