import WhereEditor.Proofs.Tree.Frame

/-!
The outline of a tree, which is its shape without the ids of the groups, and reading it back from
the brackets that are written around the clauses. Main statements: the reader takes exactly the
sequences that an outline is written as; and for every tree that edits lead to, the brackets counted
at each clause are a written form of the tree's own outline.
-/

namespace WhereEditor

inductive Outline where
  | nil
  | clause (id : NodeId) (rest : Outline)
  | group (members rest : Outline)
  deriving DecidableEq

inductive Bracket where
  | opens
  | clause (id : NodeId)
  | closes
  deriving DecidableEq

namespace Outline

def append : Outline → Outline → Outline
  | nil, tail => tail
  | clause id rest, tail => clause id (rest.append tail)
  | group members rest, tail => group members (rest.append tail)

instance : Append Outline := ⟨append⟩

def write : Outline → List Bracket
  | nil => []
  | clause id rest => .clause id :: rest.write
  | group members rest => .opens :: (members.write ++ .closes :: rest.write)

/-- Reads on after the row under way and the rows of the groups that are still open around it, from
the inside out. -/
def readFrom? (row : Outline) (outer : List Outline) : List Bracket → Option Outline
  | [] => if outer = [] then some row else none
  | .clause id :: later => readFrom? (row ++ clause id nil) outer later
  | .opens :: later => readFrom? nil (row :: outer) later
  | .closes :: later => match outer with
    | [] => none
    | around :: beyond => readFrom? (around ++ group row nil) beyond later

def read? (brackets : List Bracket) : Option Outline := readFrom? nil [] brackets

/-! ## What the reader takes -/

@[simp] theorem nil_append (tail : Outline) : nil ++ tail = tail := rfl

@[simp] theorem clause_append (id : NodeId) (rest tail : Outline) :
    clause id rest ++ tail = clause id (rest ++ tail) := rfl

@[simp] theorem group_append (members rest tail : Outline) :
    group members rest ++ tail = group members (rest ++ tail) := rfl

@[simp] theorem append_nil (row : Outline) : row ++ nil = row := by
  induction row with
  | nil => rfl
  | clause id rest ih => rw [clause_append, ih]
  | group members rest _ ih => rw [group_append, ih]

theorem append_assoc (first second third : Outline) :
    first ++ second ++ third = first ++ (second ++ third) := by
  induction first with
  | nil => rfl
  | clause id rest ih => rw [clause_append, clause_append, clause_append, ih]
  | group members rest _ ih => rw [group_append, group_append, group_append, ih]

theorem write_append (row tail : Outline) : (row ++ tail).write = row.write ++ tail.write := by
  induction row with
  | nil => rfl
  | clause id rest ih => rw [clause_append, write, write, ih, List.cons_append]
  | group members rest _ ih => simp [write, ih]

theorem readFrom?_write_append (outline row : Outline) (outer : List Outline)
    (later : List Bracket) :
    readFrom? row outer (outline.write ++ later) = readFrom? (row ++ outline) outer later := by
  induction outline generalizing row outer later with
  | nil => rw [append_nil]; rfl
  | clause id rest ih =>
      rw [write, List.cons_append, readFrom?, ih, append_assoc]
      rfl
  | group members rest inner ih =>
      rw [write, List.cons_append, List.append_assoc, readFrom?, inner, List.cons_append, readFrom?,
        ih, nil_append, append_assoc]
      rfl

def writeOpen : List Outline → List Bracket
  | [] => []
  | around :: beyond => writeOpen beyond ++ around.write ++ [.opens]

theorem write_of_readFrom? {brackets : List Bracket} {row outline : Outline} {outer : List Outline}
    (read : readFrom? row outer brackets = some outline) :
    outline.write = writeOpen outer ++ row.write ++ brackets := by
  induction brackets generalizing row outer with
  | nil =>
      rw [readFrom?] at read
      split at read
      · rename_i closed
        cases Option.some.inj read
        simp [closed, writeOpen]
      · exact absurd read (by simp)
  | cons bracket later ih =>
      cases bracket with
      | clause id =>
          rw [readFrom?] at read
          simp [ih read, write_append, write]
      | opens =>
          rw [readFrom?] at read
          simp [ih read, writeOpen, write]
      | closes =>
          cases outer with
          | nil => exact absurd read (by simp [readFrom?])
          | cons around beyond =>
              rw [readFrom?] at read
              simp [ih read, writeOpen, write_append, write]

/-- The reader takes exactly the written forms. -/
theorem read?_eq_some_iff {brackets : List Bracket} {outline : Outline} :
    read? brackets = some outline ↔ brackets = outline.write := by
  constructor
  · intro read
    simpa [writeOpen, write] using (write_of_readFrom? read).symm
  · rintro rfl
    simpa [read?, readFrom?] using readFrom?_write_append outline nil [] []

end Outline

/-! ## The brackets of a tree -/

def Framed.brackets (framed : Framed) : List Bracket :=
  List.replicate framed.opening Bracket.opens ++
    Bracket.clause framed.entry.1 :: List.replicate framed.closing Bracket.closes

namespace Framed

theorem flatMap_brackets_modifyHead {clauses : List Framed} (inhabited : clauses ≠ []) :
    (clauses.modifyHead fun framed => { framed with opening := framed.opening + 1 }).flatMap
      brackets = .opens :: clauses.flatMap brackets := by
  cases clauses with
  | nil => exact absurd rfl inhabited
  | cons first others => simp [brackets, List.replicate_succ]

theorem flatMap_brackets_modifyLast {clauses : List Framed} (inhabited : clauses ≠ []) :
    (clauses.modifyLast fun framed => { framed with closing := framed.closing + 1 }).flatMap
      brackets = clauses.flatMap brackets ++ [Bracket.closes] := by
  rcases List.eq_nil_or_concat clauses with rfl | ⟨others, last, rfl⟩
  · exact absurd rfl inhabited
  · rw [List.concat_eq_append, List.modifyLast_concat]
    simp [brackets, List.replicate_succ']

theorem flatMap_brackets_enclose {clauses : List Framed} (inhabited : clauses ≠ []) :
    (enclose clauses).flatMap brackets = .opens :: (clauses.flatMap brackets ++ [Bracket.closes]) := by
  rw [enclose, flatMap_brackets_modifyLast (by simpa using inhabited),
    flatMap_brackets_modifyHead inhabited]
  rfl

end Framed

namespace Forest

def outline : Forest → Outline
  | nil => .nil
  | clause id _ rest => .clause id rest.outline
  | group _ members rest => .group members.outline rest.outline

theorem write_outline (row : Forest) (occupied : row.AtLeast 1) :
    row.outline.write = row.framed.flatMap Framed.brackets := by
  induction row with
  | nil => rfl
  | clause id body rest ih =>
      rw [outline, Outline.write, framed, List.flatMap_cons, ih occupied]
      rfl
  | group id members rest inner ih =>
      obtain ⟨enough, membersOccupied, restOccupied⟩ := occupied
      rw [outline, Outline.write, framed, List.flatMap_append, inner membersOccupied,
        ih restOccupied, Framed.flatMap_brackets_enclose (framed_ne_nil membersOccupied enough)]
      simp

end Forest

namespace Tree

def brackets (tree : Tree) : List Bracket :=
  tree.clauses.flatMap fun (id, _) =>
    List.replicate (tree.opening id) .opens ++
      .clause id :: List.replicate (tree.closing id) .closes

theorem Sound.brackets_eq {tree : Tree} (sound : tree.Sound) :
    tree.brackets = tree.row.outline.write := by
  rw [Forest.write_outline tree.row sound.occupied, sound.framed_eq, List.flatMap_map]
  rfl

theorem brackets_congr {first second : Tree}
    (sameClauses : first.clauses.map Prod.fst = second.clauses.map Prod.fst)
    (sameCounts : ∀ id ∈ second.clauses.map Prod.fst,
      first.opening id = second.opening id ∧ first.closing id = second.closing id) :
    first.brackets = second.brackets := by
  have byId : ∀ tree : Tree, tree.brackets =
      (tree.clauses.map Prod.fst).flatMap fun id =>
        List.replicate (tree.opening id) Bracket.opens ++
          Bracket.clause id :: List.replicate (tree.closing id) Bracket.closes := by
    intro tree
    rw [List.flatMap_map]
    rfl
  rw [byId, byId, sameClauses]
  refine List.flatMap_congr fun id member => ?_
  rw [(sameCounts id member).1, (sameCounts id member).2]

/-- After any run of edits the brackets at the clauses are read back as the outline of the tree. So
two trees with the same clauses and the same numbers of brackets at each have the same outline. -/
theorem read?_brackets_after (edits : List Edit) :
    Outline.read? (after edits).brackets = some (after edits).row.outline ∧
      ∀ others : List Edit,
        (after others).clauses.map Prod.fst = (after edits).clauses.map Prod.fst →
        (∀ id ∈ (after edits).clauses.map Prod.fst,
          (after others).opening id = (after edits).opening id ∧
            (after others).closing id = (after edits).closing id) →
        (after others).row.outline = (after edits).row.outline := by
  have read : ∀ run, Outline.read? (after run).brackets = some (after run).row.outline :=
    fun run => Outline.read?_eq_some_iff.mpr (sound_after run).brackets_eq
  refine ⟨read edits, fun others sameClauses sameCounts => ?_⟩
  have same : (after others).brackets = (after edits).brackets :=
    brackets_congr sameClauses sameCounts
  exact Option.some.inj ((read others).symm.trans (same ▸ read edits))

end Tree

end WhereEditor
