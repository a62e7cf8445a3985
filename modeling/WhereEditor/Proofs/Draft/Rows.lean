import WhereEditor.Draft.Rows
import WhereEditor.Proofs.Draft.Action
import WhereEditor.Proofs.Text.Blank
import WhereEditor.Proofs.Tree.Cells

/-!
The rows of a draft as text: one line for each clause, two characters of it for each cell of the
margin. Main statement: what is drawn of a group in the line of each clause below it, in every draft
that operations and lines lead to.
-/

namespace WhereEditor

theorem DataType.endsVisible_name (type : DataType) : Text.EndsVisible type.name.toList := by
  have of_last : ∀ {text : List Char} (inhabited : text ≠ []),
      Text.isBlank (text.getLast inhabited) = false → Text.EndsVisible text :=
    fun inhabited visible => ⟨_, _, (List.dropLast_concat_getLast inhabited).symm, visible⟩
  cases type with
  | edm type | cql type => cases type <;> exact of_last (by decide) (by decide)

/-! ## Lines -/

def Cell.sign (cell : Cell) : Char :=
  if cell.group.isNone then ' '
  else if !cell.hasLine then '─'
  else if cell.isFirst then '┌'
  else if cell.hasBottom then '└'
  else '│'

theorem Cell.toList_render (cell : Cell) : cell.render.toList = [cell.sign, ' '] := by
  rw [render, sign]
  repeat' split
  all_goals rfl

theorem Cell.getElem?_flatMap_render (cells : List Cell) (index : Nat) :
    (cells.flatMap fun cell => [cell.sign, ' '])[2 * index]? = cells[index]?.map sign ∧
      (cells.flatMap fun cell => [cell.sign, ' '])[2 * index + 1]? =
        cells[index]?.map fun _ => ' ' := by
  induction cells generalizing index with
  | nil => simp
  | cons cell later ih =>
      cases index with
      | zero => simp
      | succ index =>
          have step : 2 * (index + 1) = 2 * index + 2 := Nat.mul_succ 2 index
          simpa [step] using ih index

namespace Draft

def lines (draft : Draft) : List String := draft.rows.map draft.renderRow

theorem getElem?_rows (draft : Draft) (index : Nat) :
    draft.rows[index]? = (draft.tree.clauses[index]?).map (draft.rowOf (index == 0)) := by
  rw [rows]
  cases draft.tree.clauses with
  | nil => rfl
  | cons first others => cases index <;> simp

theorem toList_renderRow (draft : Draft) (row : Row) :
    (draft.renderRow row).toList =
      ((draft.tree.margin row.id).flatMap fun cell => [cell.sign, ' ']) ++ row.render.toList := by
  rw [renderRow, String.toList_append, String.toList_join, List.flatMap_map]
  simp only [Cell.toList_render]

theorem endsVisible_renderRow (draft : Draft) (row : Row) :
    Text.EndsVisible (draft.renderRow row).toList := by
  rw [toList_renderRow, Row.render]
  simp only [String.toList_append]
  exact (row.clause.type.endsVisible_name.append _).append _

/-- Nothing is trimmed off the lines. -/
theorem render_eq (draft : Draft) (inhabited : draft.tree.clauses ≠ []) :
    draft.render = "\n".intercalate draft.lines := by
  have filled : draft.rows ≠ [] := by
    rw [rows]
    cases clauses : draft.tree.clauses with
    | nil => exact absurd clauses inhabited
    | cons first others => simp
  have ends : Text.EndsVisible ("\n".intercalate draft.lines).toList := by
    refine Text.EndsVisible.intercalate (by simpa [lines] using filled) ?_ "\n"
    intro line member
    obtain ⟨row, _, rfl⟩ := List.mem_map.mp member
    exact draft.endsVisible_renderRow row
  rw [render, if_neg (by simpa using filled)]
  simp only [← lines.eq_1]
  rw [ends.trimEnd_eq, String.ofList_toList]

theorem exists_line (draft : Draft) {index column : Nat} {entry : NodeId × Clause} {cell : Cell}
    (stands : draft.tree.clauses[index]? = some entry)
    (drawn : (draft.tree.margin entry.1)[column]? = some cell) :
    ∃ line, draft.lines[index]? = some line ∧ line.toList[2 * column]? = some cell.sign ∧
      line.toList[2 * column + 1]? = some ' ' := by
  have row : draft.rows[index]? = some (draft.rowOf (index == 0) entry) := by
    rw [getElem?_rows, stands, Option.map_some]
  refine ⟨draft.renderRow (draft.rowOf (index == 0) entry), by simp [lines, row], ?_⟩
  obtain ⟨sign, blank⟩ := Cell.getElem?_flatMap_render (draft.tree.margin entry.1) column
  rw [drawn, Option.map_some] at sign blank
  obtain ⟨signInside, _⟩ := List.getElem?_eq_some_iff.mp sign
  obtain ⟨blankInside, _⟩ := List.getElem?_eq_some_iff.mp blank
  rw [toList_renderRow]
  exact ⟨(List.getElem?_append_left signInside).trans sign,
    (List.getElem?_append_left blankInside).trans blank⟩

/-- In every draft that operations and lines lead to, each line has the bracket of each group around
its clause in the column of the group: a lower corner at the last clause of the group, an upper one
at the first, but only if no item of the group is deeper than the first one, and a bar otherwise. -/
theorem sign_after (settings : Settings) (steps : List Step) {group : NodeId}
    (inner : group ≠ NodeId.root) {index : Nat} {entry : NodeId × Clause}
    (stands : (after settings steps).tree.clauses[index]? = some entry)
    (inside : entry ∈ (after settings steps).tree.clausesBelow group) :
    let draft := after settings steps
    let tree := draft.tree
    let below := tree.clausesBelow group
    let column := tree.depth NodeId.root - 1 - (tree.depth group - tree.groupDepth group)
    draft.render = "\n".intercalate draft.lines ∧
      ∃ line sign, draft.lines[index]? = some line ∧
        line.toList[2 * column]? = some sign ∧ line.toList[2 * column + 1]? = some ' ' ∧
        (below.head? = some entry → sign = if tree.DeepestFirst group then '┌' else '│') ∧
        (below.getLast? = some entry → sign = '└') ∧
        (below.head? ≠ some entry → below.getLast? ≠ some entry → sign = '│') := by
  intro draft tree below column
  have sound : tree.Sound 2 := sound_after settings steps
  have inhabited : tree.clauses ≠ [] := List.ne_nil_of_mem (List.mem_of_getElem? stands)
  refine ⟨draft.render_eq inhabited, ?_⟩
  obtain ⟨line, here, sign, blank⟩ :=
    draft.exists_line stands ((sound.mono (by decide)).getElem?_margin inner inside)
  refine ⟨line, _, here, sign, blank, ?_, ?_, ?_⟩
  · intro (first : (tree.clausesBelow group).head? = some entry)
    have notLast := sound.getLast?_ne_of_head? inner first
    simp [Cell.sign, first, notLast]
  · intro (last : (tree.clausesBelow group).getLast? = some entry)
    have notFirst : (tree.clausesBelow group).head? ≠ some entry := fun first =>
      sound.getLast?_ne_of_head? inner first last
    simp [Cell.sign, notFirst, last]
  · intro (notFirst : (tree.clausesBelow group).head? ≠ some entry)
      (notLast : (tree.clausesBelow group).getLast? ≠ some entry)
    simp [Cell.sign, notFirst, notLast]

/-- A clause beside a group of two, all three of them grouped: the last clause of the inner group is
that of the outer one too. -/
theorem sign_after_nested :
    let steps : List Step := [.act (.add 0 none), .act (.add 1 none), .act (.add 2 none),
      .act (.select 2 true), .act (.select 3 true), .act .group, .act (.select 1 true),
      .act (.select 2 true), .act (.select 3 true), .act .group]
    let draft := after (.sample .tables) steps
    5 ≠ NodeId.root ∧ draft.tree.clauses[2]? = some (3, .blank .tables) ∧
      (3, Clause.blank .tables) ∈ draft.tree.clausesBelow 5 ∧
      ∃ line, draft.lines[2]? = some line ∧ line.toList[0]? = some '└' := by
  intro steps draft
  have inner : 5 ≠ NodeId.root := by decide
  have stands : draft.tree.clauses[2]? = some (3, Clause.blank .tables) := by decide +kernel
  have inside : (3, Clause.blank .tables) ∈ draft.tree.clausesBelow 5 := by decide +kernel
  obtain ⟨_, line, sign, here, drawn, _, _, last, _⟩ := sign_after _ steps inner stands inside
  have column : draft.tree.depth NodeId.root - 1 -
      (draft.tree.depth 5 - draft.tree.groupDepth 5) = 0 := by
    decide +kernel
  rw [column, last (by decide +kernel)] at drawn
  exact ⟨inner, stands, inside, line, here, drawn⟩

/-- There the first clause of the outer group gets a bar. -/
theorem exists_bar_at_first :
    let steps : List Step := [.act (.add 0 none), .act (.add 1 none), .act (.add 2 none),
      .act (.select 2 true), .act (.select 3 true), .act .group, .act (.select 1 true),
      .act (.select 2 true), .act (.select 3 true), .act .group]
    let draft := after (.sample .tables) steps
    let tree := draft.tree
    5 ≠ NodeId.root ∧ tree.clauses[0]? = some (1, .blank .tables) ∧
      (tree.clausesBelow 5).head? = some (1, .blank .tables) ∧
      tree.depth NodeId.root - 1 - (tree.depth 5 - tree.groupDepth 5) = 0 ∧
      ∃ line, draft.lines[0]? = some line ∧ line.toList[0]? = some '│' := by
  intro steps draft tree
  have stands : tree.clauses[0]? = some (1, Clause.blank .tables) := by decide +kernel
  have cell : (tree.margin 1)[0]? =
      some { group := some 5, depth := 1, hasTop := true, hasLine := true } := by
    decide +kernel
  obtain ⟨line, here, sign, _⟩ := draft.exists_line stands cell
  exact ⟨by decide, stands, by decide +kernel, by decide +kernel, line, here, sign⟩

end Draft

end WhereEditor
