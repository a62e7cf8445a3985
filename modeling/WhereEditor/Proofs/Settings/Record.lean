import WhereEditor.Proofs.Support
import WhereEditor.Settings.File

/-!
Objects that stand for records. Main statement: the fields of a record are found in whatever order its
members stand, whatever other members stand between them and whichever optional fields are left out.
-/

namespace WhereEditor

structure RecordField where
  name : String
  /-- The values that stand for what the record has in the field. -/
  stands : Json → Prop
  optional : Prop

namespace RecordField

def required (name : String) (stands : Json → Prop) : RecordField where
  name := name
  stands := stands
  optional := False

def defaulted {α : Type} (name : String) (default given : α) (stands : Json → Prop) : RecordField where
  name := name
  stands := stands
  optional := given = default

def Answers (field : RecordField) : Option Json → Prop
  | none => field.optional
  | some value => field.stands value

end RecordField

inductive Fills : List RecordField → List (Option String × Json) → Prop
  | nil : Fills [] []
  | given {field : RecordField} {fields : List RecordField} {value : Json}
      {members : List (Option String × Json)} : field.stands value → Fills fields members →
      Fills (field :: fields) ((some field.name, value) :: members)
  | omitted {field : RecordField} {fields : List RecordField}
      {members : List (Option String × Json)} : field.optional → Fills fields members →
      Fills (field :: fields) members

/-- The objects that stand for a record with some fields. Its members come in any order, and with
them others of any value whose names are texts that no field has. -/
inductive IsRecord (fields : List RecordField) : Json → Prop
  | object {known others members : List (Option String × Json)} : Fills fields known →
      (∀ other ∈ others, ∃ name, other.1 = some name ∧ name ∉ fields.map RecordField.name) →
      members.Perm (known ++ others) → IsRecord fields (.object members)

namespace Json

variable {fields : List RecordField} {known members : List (Option String × Json)} {value : Json}

@[simp] theorem named_append (name : String) (front back : List (Option String × Json)) :
    named name (front ++ back) = named name front ++ named name back :=
  List.filterMap_append

theorem named_cons (name : String) (key : Option String) :
    named name ((key, value) :: members) =
      if key = some name then value :: named name members else named name members := by
  by_cases same : key = some name <;> simp [named, same]

theorem named_perm (name : String) {first second : List (Option String × Json)}
    (order : first.Perm second) : (named name first).Perm (named name second) :=
  order.filterMap _

theorem named_eq_nil {name : String}
    (absent : ∀ member ∈ members, member.1 ≠ some name) : named name members = [] := by
  refine List.filterMap_eq_nil_iff.mpr fun member among => ?_
  exact if_neg (absent member among)

theorem fills_key_mem (fills : Fills fields known) :
    ∀ member ∈ known, ∃ field ∈ fields, member.1 = some field.name := by
  induction fills with
  | nil => simp
  | given _ _ ih =>
      rintro member (_ | ⟨_, later⟩)
      · exact ⟨_, List.mem_cons_self, rfl⟩
      · obtain ⟨field, among, key⟩ := ih member later
        exact ⟨field, List.mem_cons_of_mem _ among, key⟩
  | omitted _ _ ih =>
      intro member among
      obtain ⟨field, found, key⟩ := ih member among
      exact ⟨field, List.mem_cons_of_mem _ found, key⟩

theorem fills_apart {field : RecordField} (fills : Fills fields known)
    (distinct : field.name ∉ fields.map RecordField.name) : named field.name known = [] := by
  refine named_eq_nil fun member among same => ?_
  obtain ⟨other, found, key⟩ := fills_key_mem fills member among
  have names : other.name = field.name := Option.some.inj (key.symm.trans same)
  exact distinct (names ▸ List.mem_map_of_mem found)

theorem named_of_fills (fills : Fills fields known) (distinct : (fields.map RecordField.name).Nodup) :
    ∀ field ∈ fields, ∃ answer, named field.name known = answer.toList ∧ field.Answers answer := by
  induction fills with
  | nil => simp
  | @given field fields value members stands fills ih =>
      obtain ⟨apart, distinct⟩ := List.nodup_cons.mp distinct
      rintro other (_ | ⟨_, later⟩)
      · exact ⟨some value, by simp [named_cons, fills_apart fills apart], stands⟩
      · obtain ⟨answer, found, answers⟩ := ih distinct other later
        have differs : field.name ≠ other.name :=
          fun same => apart (same ▸ List.mem_map_of_mem later)
        exact ⟨answer, by simp [named_cons, differs, found], answers⟩
  | @omitted field fields members optional fills ih =>
      obtain ⟨apart, distinct⟩ := List.nodup_cons.mp distinct
      rintro other (_ | ⟨_, later⟩)
      · exact ⟨none, fills_apart fills apart, optional⟩
      · exact ih distinct other later

/-- Neither the order of the members nor the others among them change what is found of a field. -/
theorem named_of_isRecord (record : IsRecord fields (.object members))
    (distinct : (fields.map RecordField.name).Nodup) :
    ∀ field ∈ fields, ∃ answer, named field.name members = answer.toList ∧ field.Answers answer := by
  cases record with | @object known others _ fills unknown order =>
  intro field among
  obtain ⟨answer, found, answers⟩ := named_of_fills fills distinct field among
  have strange : named field.name others = [] := by
    refine named_eq_nil fun other member same => ?_
    obtain ⟨name, key, absent⟩ := unknown other member
    have names : name = field.name := Option.some.inj (key.symm.trans same)
    exact absent (names ▸ List.mem_map_of_mem among)
  -- A list with one item at most has no other order.
  have perm : (named field.name members).Perm answer.toList := by
    simpa [found, strange] using named_perm field.name order
  exact ⟨answer, eq_toList_of_perm perm, answers⟩

theorem isSome_key_of_isRecord (record : IsRecord fields (.object members)) :
    ∀ member ∈ members, member.1.isSome = true := by
  cases record with | object fills unknown order =>
  intro member among
  rcases List.mem_append.mp (order.mem_iff.mp among) with known | other
  · obtain ⟨field, _, key⟩ := fills_key_mem fills member known
    simp [key]
  · obtain ⟨name, key, _⟩ := unknown member other
    simp [key]

theorem exists_fields (record : IsRecord fields value)
    (distinct : (fields.map RecordField.name).Nodup) :
    ∃ found, value.fields? (fields.map RecordField.name) = some found ∧
      List.Forall₂ RecordField.Answers fields found := by
  obtain ⟨members, rfl⟩ : ∃ members, value = .object members := by
    cases record
    exact ⟨_, rfl⟩
  have each := named_of_isRecord record distinct
  have keys := List.all_eq_true.mpr (isSome_key_of_isRecord record)
  have once : ∀ name ∈ fields.map RecordField.name, (named name members).length ≤ 1 := by
    intro name among
    obtain ⟨field, found, rfl⟩ := List.mem_map.mp among
    obtain ⟨answer, whole, _⟩ := each field found
    rw [whole]
    cases answer <;> simp
  refine ⟨_, if_pos ⟨keys, once⟩, ?_⟩
  rw [List.map_map, List.forall₂_map_right_iff, List.forall₂_same]
  intro field among
  obtain ⟨answer, whole, answers⟩ := each field among
  rw [Function.comp_apply, whole]
  cases answer <;> exact answers

theorem exists_of_required {name : String} {stands : Json → Prop} {answer : Option Json}
    (answers : (RecordField.required name stands).Answers answer) :
    ∃ value, answer = some value ∧ stands value := by
  cases answer with
  | none => exact answers.elim
  | some value => exact ⟨value, rfl, answers⟩

theorem field?_of_answers {α : Type} {name : String} {default given : α} {stands : Json → Prop}
    {read? : Json → Option α} {answer : Option Json}
    (answers : (RecordField.defaulted name default given stands).Answers answer)
    (read : ∀ value, stands value → read? value = some given) :
    field? default read? answer = some given := by
  cases answer with
  | none => exact congrArg some (Eq.symm answers)
  | some value => exact read value answers

end Json

end WhereEditor
