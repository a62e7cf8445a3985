import WhereEditor.Draft.Rows
import WhereEditor.Proofs.Text.Blank
import WhereEditor.Proofs.Tree.Frame

/-!
A query as it is read off the tree from the top down: each clause as its comparison, each group
between parentheses, and between two items the word that joins the second one. Main statement: the
writer, which goes through the clauses one by one, writes the pieces of the whole tree, and joins
them by the words that the rows show.
-/

namespace WhereEditor

inductive Piece where
  | opens
  | comparison (clause : Clause)
  | joiner (word : Combinator)
  | closes

namespace Piece

def joiner? : Piece → Option Combinator
  | joiner word => some word
  | _ => none

end Piece

namespace Forest

def leading? : Forest → Option Clause
  | nil => none
  | clause _ body _ => some body
  | group _ members _ => members.leading?

def link (row : Forest) : List Piece :=
  row.leading?.toList.map fun clause => .joiner (clause.joiner false)

def pieces : Forest → List Piece
  | nil => []
  | clause _ body rest => .comparison body :: (rest.link ++ rest.pieces)
  | group _ members rest => .opens :: (members.pieces ++ .closes :: (rest.link ++ rest.pieces))

end Forest

namespace Style

def printPiece (style : Style) (clock : Clock) : Piece → Except Error String
  | .opens => .ok "("
  | .comparison clause => style.writeClause clock clause
  | .joiner word => .ok (" " ++ word.word ++ " ")
  | .closes => .ok ")"

def print (style : Style) (clock : Clock) (pieces : List Piece) : Except Error String := do
  let texts ← pieces.mapM (style.printPiece clock)
  return String.join texts

def preamble (style : Style) (tree : Tree) (options : QueryOptions) : String :=
  match style.head? options with
  | some head => if tree.clauses.isEmpty then head else head ++ " WHERE"
  | none => ""

end Style

/-! ## Pieces clause by clause -/

namespace Framed

def pieces (framed : Framed) : List Piece :=
  List.replicate framed.opening Piece.opens ++
    Piece.comparison framed.entry.2 :: List.replicate framed.closing Piece.closes

def joinedPieces (clauses : List Framed) : List Piece :=
  clauses.flatMap fun framed => .joiner (framed.entry.2.joiner false) :: framed.pieces

def rowPieces : List Framed → List Piece
  | [] => []
  | first :: others => first.pieces ++ joinedPieces others

theorem rowPieces_append {clauses : List Framed} (inhabited : clauses ≠ []) (later : List Framed) :
    rowPieces (clauses ++ later) = rowPieces clauses ++ joinedPieces later := by
  cases clauses with
  | nil => exact absurd rfl inhabited
  | cons first others => simp [rowPieces, joinedPieces]

theorem rowPieces_modifyHead {clauses : List Framed} (inhabited : clauses ≠ []) :
    rowPieces (clauses.modifyHead fun framed => { framed with opening := framed.opening + 1 }) =
      .opens :: rowPieces clauses := by
  cases clauses with
  | nil => exact absurd rfl inhabited
  | cons first others => simp [rowPieces, pieces, List.replicate_succ]

theorem rowPieces_modifyLast {clauses : List Framed} (inhabited : clauses ≠ []) :
    rowPieces (clauses.modifyLast fun framed => { framed with closing := framed.closing + 1 }) =
      rowPieces clauses ++ [Piece.closes] := by
  rcases List.eq_nil_or_concat clauses with rfl | ⟨others, last, rfl⟩
  · exact absurd rfl inhabited
  · rw [List.concat_eq_append, List.modifyLast_concat]
    cases others with
    | nil => simp [rowPieces, joinedPieces, pieces, List.replicate_succ']
    | cons first between => simp [rowPieces, joinedPieces, pieces, List.replicate_succ']

theorem rowPieces_enclose {clauses : List Framed} (inhabited : clauses ≠ []) :
    rowPieces (enclose clauses) = .opens :: (rowPieces clauses ++ [Piece.closes]) := by
  rw [enclose, rowPieces_modifyLast (by simpa using inhabited), rowPieces_modifyHead inhabited]
  rfl

theorem filterMap_joiner?_pieces (framed : Framed) :
    framed.pieces.filterMap Piece.joiner? = [] := by
  simp [pieces, Piece.joiner?, List.filterMap_cons, List.filterMap_append, List.filterMap_replicate]

theorem filterMap_joiner?_joinedPieces (clauses : List Framed) :
    (joinedPieces clauses).filterMap Piece.joiner? =
      clauses.map fun framed => framed.entry.2.joiner false := by
  induction clauses with
  | nil => rfl
  | cons framed others ih =>
      rw [joinedPieces, List.flatMap_cons, List.filterMap_append, List.filterMap_cons,
        filterMap_joiner?_pieces]
      exact congrArg _ ih

theorem filterMap_joiner?_rowPieces (clauses : List Framed) :
    (rowPieces clauses).filterMap Piece.joiner? =
      clauses.tail.map fun framed => framed.entry.2.joiner false := by
  cases clauses with
  | nil => rfl
  | cons first others =>
      rw [rowPieces, List.filterMap_append, filterMap_joiner?_pieces, List.nil_append]
      exact filterMap_joiner?_joinedPieces others

end Framed

namespace Forest

theorem leading?_eq (row : Forest) (occupied : row.AtLeast 1) :
    row.leading? = row.framed.head?.map fun framed => framed.entry.2 := by
  have byClauses : row.leading? = row.clauses.head?.map Prod.snd := by
    induction row with
    | nil => rfl
    | clause id body rest _ => rfl
    | group id members rest inner _ =>
        have inhabited := clauses_ne_nil occupied.2.1 occupied.1
        rw [leading?, clauses, List.head?_append_of_ne_nil _ inhabited, inner occupied.2.1]
  rw [byClauses, ← map_entry_framed, List.head?_map, Option.map_map]
  rfl

theorem link_append_pieces {row : Forest} (occupied : row.AtLeast 1)
    (whole : row.pieces = Framed.rowPieces row.framed) :
    row.link ++ row.pieces = Framed.joinedPieces row.framed := by
  rw [link, leading?_eq row occupied, whole]
  cases row.framed <;> simp [Framed.rowPieces, Framed.joinedPieces]

theorem pieces_eq (row : Forest) (occupied : row.AtLeast 1) :
    row.pieces = Framed.rowPieces row.framed := by
  induction row with
  | nil => rfl
  | clause id body rest ih =>
      have restOccupied : rest.AtLeast 1 := occupied
      rw [pieces, link_append_pieces restOccupied (ih restOccupied)]
      rfl
  | group id members rest inner ih =>
      obtain ⟨enough, membersOccupied, restOccupied⟩ := occupied
      have inhabited := framed_ne_nil membersOccupied enough
      rw [pieces, framed, Framed.rowPieces_append (Framed.enclose_ne_nil inhabited),
        Framed.rowPieces_enclose inhabited, inner membersOccupied,
        link_append_pieces restOccupied (ih restOccupied)]
      simp

theorem filterMap_joiner?_pieces (row : Forest) (occupied : row.AtLeast 1) :
    row.pieces.filterMap Piece.joiner? =
      row.clauses.tail.map fun entry => entry.2.joiner false := by
  rw [pieces_eq row occupied, Framed.filterMap_joiner?_rowPieces, ← map_entry_framed,
    ← List.map_tail, List.map_map]
  rfl

end Forest

/-! ## The writer -/

namespace Text

theorem trim_append_blank {blank : Char} (white : isBlank blank = true) (text : List Char) :
    trim (text ++ [blank]) = trim text := by
  have single : ∀ character ∈ [blank], isBlank character = true :=
    List.forall_mem_singleton.mpr white
  rw [trim, trim, trimStart, trimStart, List.dropWhile_append]
  split
  · rename_i allBlank
    rw [List.dropWhile_cons_of_pos white, List.isEmpty_iff.mp allBlank]
    rfl
  · exact trimEnd_append_blank single _

theorem trimText_append_blank (text : String) : trimText (text ++ " ") = trimText text := by
  have blank : (text ++ " ").toList = text.toList ++ [' '] := by simp
  rw [trimText, trimText, blank, trim_append_blank (by decide)]

end Text

namespace Style

variable (style : Style) (clock : Clock)

theorem print_cons (piece : Piece) (later : List Piece) :
    style.print clock (piece :: later) = do
      let text ← style.printPiece clock piece
      let after ← style.print clock later
      return text ++ after := by
  simp [print, String.join_cons]

theorem print_append (first second : List Piece) :
    style.print clock (first ++ second) = do
      let before ← style.print clock first
      let after ← style.print clock second
      return before ++ after := by
  simp [print, String.join_append]

theorem print_replicate {piece : Piece} {mark : Char}
    (one : style.printPiece clock piece = .ok (String.singleton mark)) (count : Nat) :
    style.print clock (List.replicate count piece) = .ok (parentheses count mark) := by
  induction count with
  | zero => rfl
  | succ count ih =>
      rw [List.replicate_succ, print_cons, one, ih]
      have longer : String.singleton mark ++ parentheses count mark = parentheses (count + 1) mark := by
        simp [parentheses, List.replicate_succ, String.ofList_cons]
      rw [← longer]
      rfl

theorem print_pieces (framed : Framed) :
    style.print clock framed.pieces = do
      let comparison ← style.writeClause clock framed.entry.2
      return parentheses framed.opening '(' ++ comparison ++ parentheses framed.closing ')' := by
  have opens : style.printPiece clock .opens = .ok (String.singleton '(') := rfl
  have closes : style.printPiece clock .closes = .ok (String.singleton ')') := rfl
  have body : style.printPiece clock (.comparison framed.entry.2) =
    style.writeClause clock framed.entry.2 := rfl
  rw [Framed.pieces, print_append, print_cons, print_replicate style clock opens,
    print_replicate style clock closes, body]
  cases style.writeClause clock framed.entry.2 with
  | error problem => rfl
  | ok comparison => exact congrArg Except.ok String.append_assoc.symm

theorem print_frame (tree : Tree) (entry : NodeId × Clause) :
    style.print clock (tree.frame entry).pieces = do
      let comparison ← style.writeClause clock entry.2
      return parentheses (tree.opening entry.1) '(' ++ comparison ++
        parentheses (tree.closing entry.1) ')' :=
  style.print_pieces clock (tree.frame entry)

theorem phrase_leading (tree : Tree) (entry : NodeId × Clause) :
    style.phrase tree clock true entry = do
      let text ← style.print clock (tree.frame entry).pieces
      return " " ++ text := by
  rw [print_frame, phrase]
  cases style.writeClause clock entry.2 with
  | error problem => rfl
  | ok comparison =>
      refine congrArg Except.ok ?_
      simp [String.append_assoc]

theorem phrase_joined (tree : Tree) (entry : NodeId × Clause) :
    style.phrase tree clock false entry =
      style.print clock (.joiner (entry.2.joiner false) :: (tree.frame entry).pieces) := by
  rw [print_cons, print_frame, phrase]
  cases style.writeClause clock entry.2 with
  | error problem => rfl
  | ok comparison =>
      refine congrArg Except.ok ?_
      simp [String.append_assoc]

theorem print_joinedPieces (tree : Tree) (entries : List (NodeId × Clause)) :
    style.print clock (Framed.joinedPieces (entries.map tree.frame)) = do
      let phrases ← entries.mapM (style.phrase tree clock false)
      return String.join phrases := by
  induction entries with
  | nil => rfl
  | cons entry later ih =>
      rw [Framed.joinedPieces, List.map_cons, List.flatMap_cons, print_append, ← Framed.joinedPieces,
        ih, List.mapM_cons, phrase_joined]
      simp only [bind_assoc, pure_bind, String.join_cons]
      rfl

theorem write_eq (tree : Tree) (sound : tree.Sound) (options : QueryOptions) :
    style.write tree options = do
      let text ← style.print options.clock tree.row.pieces
      return Text.trimText (style.preamble tree options ++ " " ++ text) := by
  rw [Forest.pieces_eq _ sound.occupied, sound.framed_eq, write, phrases, preamble]
  cases tree.clauses with
  | nil =>
      have printed : style.print options.clock (Framed.rowPieces ([].map tree.frame)) = .ok "" := rfl
      rw [printed]
      refine congrArg Except.ok ?_
      rw [String.join_nil, String.append_empty, String.append_empty, Text.trimText_append_blank]
      rfl
  | cons first others =>
      rw [List.map_cons, Framed.rowPieces, print_append, print_joinedPieces]
      cases style.head? options with
      | none =>
          simp only [phrase_leading, bind_assoc, pure_bind, String.join_cons, String.append_assoc]
      | some head =>
          simp only [phrase_leading, bind_assoc, pure_bind, String.join_cons, List.isEmpty_cons,
            String.append_assoc]

end Style

/-! ## Rows -/

namespace Clause

theorem joiner_false (clause : Clause) :
    clause.joiner false = .and ∨ clause.joiner false = .or := by
  cases chosen : clause.combinator <;> simp [joiner, chosen]

end Clause

namespace Draft

theorem map_combinator_tail_rows (draft : Draft) :
    draft.rows.tail.map Row.combinator =
      draft.tree.clauses.tail.map fun entry => entry.2.joiner false := by
  rw [rows]
  cases draft.tree.clauses with
  | nil => rfl
  | cons first others =>
      rw [List.tail_cons, List.tail_cons, List.map_map]
      rfl

end Draft

namespace Style

end Style

end WhereEditor
