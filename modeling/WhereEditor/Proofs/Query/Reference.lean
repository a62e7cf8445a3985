import WhereEditor.Query.Cql

/-!
Names of tables in column stores. Main statement: a keyspace and a table, each between double quotes
and with a dot between them, are read back from where they stand, so that no name ends its quotes early
and no two tables are named alike.
-/

namespace WhereEditor.Cql

def doubled (name : String) : String :=
  String.ofList (name.toList.flatMap fun character =>
    if character = '"' then ['"', '"'] else [character])

def reference (keyspace table : String) : String :=
  "\"" ++ doubled keyspace ++ "\".\"" ++ doubled table ++ "\""

def readReference? (text : List Char) : Option ((String × String) × List Char) := do
  let (keyspace, rest) ← readName? text
  match rest with
  | '.' :: rest => do
      let (table, rest) ← readName? rest
      some ((String.ofList keyspace, String.ofList table), rest)
  | _ => none

/-! ## One name -/

theorem escape_eq_flatMap (name : List Char) :
    escape name = name.flatMap fun character =>
      if character = '"' then ['"', '"'] else [character] := by
  induction name with
  | nil => rfl
  | cons character name ih =>
      rw [escape, List.flatMap_cons, ih]
      split <;> rfl

theorem toList_doubled (name : String) : (doubled name).toList = escape name.toList := by
  rw [doubled, String.toList_ofList, escape_eq_flatMap]

theorem quotedName_eq (name : String) : quotedName name = "\"" ++ doubled name ++ "\"" := by
  apply String.toList_inj.mp
  rw [quotedName, String.toList_ofList, String.toList_append, String.toList_append, toList_doubled]
  rfl

/-- The reader takes nothing but what escaping gives, and goes as far as it can. -/
theorem readEscaped?_eq_some_iff {text name rest : List Char} :
    readEscaped? text = some (name, rest) ↔
      text = escape name ++ '"' :: rest ∧ rest.head? ≠ some '"' := by
  constructor
  · intro read
    fun_induction readEscaped? text generalizing name rest with
    | case1 => cases read
    | case2 text ih =>
        obtain ⟨⟨inner, beyond⟩, taken, same⟩ := Option.map_eq_some_iff.mp read
        cases same
        obtain ⟨rfl, apart⟩ := ih taken
        exact ⟨by simp [escape], apart⟩
    | case3 text single =>
        cases read
        refine ⟨rfl, fun quote => ?_⟩
        cases text with
        | nil => cases quote
        | cons next beyond =>
            cases quote
            exact single beyond rfl
    | case4 character text other plain ih =>
        obtain ⟨⟨inner, beyond⟩, taken, same⟩ := Option.map_eq_some_iff.mp read
        cases same
        obtain ⟨rfl, apart⟩ := ih taken
        have differs : character ≠ '"' := fun quote => plain quote
        exact ⟨by simp [escape, differs], apart⟩
  · rintro ⟨rfl, apart⟩
    exact readEscaped?_escape name rest apart

theorem readName?_eq_some_iff {text name rest : List Char} :
    readName? text = some (name, rest) ↔
      text = '"' :: escape name ++ '"' :: rest ∧ rest.head? ≠ some '"' := by
  constructor
  · intro read
    unfold readName? at read
    split at read
    · obtain ⟨rfl, apart⟩ := readEscaped?_eq_some_iff.mp read
      exact ⟨rfl, apart⟩
    · cases read
  · rintro ⟨rfl, apart⟩
    exact readEscaped?_eq_some_iff.mpr ⟨rfl, apart⟩

/-! ## Two names -/

theorem toList_reference (keyspace table : String) (rest : List Char) :
    (reference keyspace table).toList ++ rest =
      '"' :: escape keyspace.toList ++ '"' :: '.' :: '"' :: escape table.toList ++ '"' :: rest := by
  simp [reference, toList_doubled]

theorem readReference?_eq_some_iff {text rest : List Char} {keyspace table : String} :
    readReference? text = some ((keyspace, table), rest) ↔
      text = (reference keyspace table).toList ++ rest ∧ rest.head? ≠ some '"' := by
  rw [toList_reference]
  constructor
  · intro read
    obtain ⟨⟨first, beyond⟩, taken, after⟩ := Option.bind_eq_some_iff.mp read
    obtain ⟨rfl, _⟩ := readName?_eq_some_iff.mp taken
    dsimp only at after
    split at after
    · obtain ⟨⟨second, left⟩, found, same⟩ := Option.bind_eq_some_iff.mp after
      obtain ⟨rfl, apart⟩ := readName?_eq_some_iff.mp found
      cases same
      simp only [String.toList_ofList]
      exact ⟨by simp, apart⟩
    · cases after
  · rintro ⟨rfl, apart⟩
    have second : readName? ('"' :: escape table.toList ++ '"' :: rest) =
        some (table.toList, rest) := readName?_eq_some_iff.mpr ⟨rfl, apart⟩
    have first : readName? ('"' :: escape keyspace.toList ++
          '"' :: '.' :: '"' :: escape table.toList ++ '"' :: rest) =
        some (keyspace.toList, '.' :: '"' :: escape table.toList ++ '"' :: rest) :=
      readName?_eq_some_iff.mpr ⟨by simp, by simp⟩
    rw [List.cons_append] at second
    rw [readReference?, first]
    simp only [bind, Option.bind_some, List.cons_append, second, String.ofList_toList]

theorem readReference?_reference (keyspace table : String) :
    readReference? (reference keyspace table).toList = some ((keyspace, table), []) :=
  readReference?_eq_some_iff.mpr ⟨by simp, by simp⟩

theorem reference_inj {keyspace table otherKeyspace otherTable : String} :
    reference otherKeyspace otherTable = reference keyspace table ↔
      otherKeyspace = keyspace ∧ otherTable = table := by
  refine ⟨fun same => ?_, fun ⟨first, second⟩ => by rw [first, second]⟩
  have read := readReference?_reference otherKeyspace otherTable
  rw [same, readReference?_reference] at read
  simp only [Option.some.injEq, Prod.mk.injEq, and_true] at read
  exact ⟨read.1.symm, read.2.symm⟩

theorem head_eq (keyspace table : String) (columns : List String) :
    head keyspace table columns =
      "SELECT " ++ (if columns = [] then "*" else ", ".intercalate columns) ++ " FROM " ++
        reference keyspace table := by
  have marks : "\".\"" = "\"" ++ "." ++ "\"" := rfl
  simp only [head, List.isEmpty_iff, quotedName_eq, reference, marks, String.append_assoc]

/-- A query of a column store begins with the columns as they are, or a star, and the names of the
keyspace and the table between double quotes. Read from its first double quote on, the reference gives
the two names back with nothing left, and other names give another beginning. -/
theorem head_reference (keyspace table : String) (columns : List String) :
    head keyspace table columns =
        "SELECT " ++ (if columns = [] then "*" else ", ".intercalate columns) ++ " FROM " ++
          reference keyspace table ∧
      readReference? (reference keyspace table).toList = some ((keyspace, table), []) ∧
      ∀ otherKeyspace otherTable,
        head otherKeyspace otherTable columns = head keyspace table columns ↔
          otherKeyspace = keyspace ∧ otherTable = table := by
  refine ⟨head_eq keyspace table columns, readReference?_reference keyspace table,
    fun otherKeyspace otherTable => ?_⟩
  rw [head_eq, head_eq, ← reference_inj, String.append_right_inj]

-- A keyspace that holds the marks between two names, and a table of one double quote.
example : reference "a\".\"b" "\"" = "\"a\"\".\"\"b\".\"\"\"\"" := by decide

end WhereEditor.Cql
