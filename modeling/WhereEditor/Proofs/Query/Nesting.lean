import WhereEditor.Proofs.Query.Pieces
import WhereEditor.Proofs.Tree.Ascent

/-!
How far the parentheses of a query lie within each other. Main statement: as far as the groups of the
tree do, in the pieces of the query and, where no comparison brings parentheses of its own, in its text.
-/

namespace WhereEditor

inductive Parenthesis where
  | opens
  | closes
  deriving DecidableEq

namespace Parenthesis

def ofChar? : Char → Option Parenthesis
  | '(' => some opens
  | ')' => some closes
  | _ => none

def inText (text : String) : List Parenthesis := text.toList.filterMap ofChar?

/-- The most parentheses that are open at once, where `level` are open before the first one. -/
def nesting (level : Nat) : List Parenthesis → Nat
  | [] => level
  | opens :: later => nesting (level + 1) later
  | closes :: later => max level (nesting (level - 1) later)

theorem le_nesting (level : Nat) (later : List Parenthesis) : level ≤ nesting level later := by
  induction later generalizing level with
  | nil => exact Nat.le_refl _
  | cons first later ih =>
      cases first with
      | opens => exact Nat.le_of_succ_le (ih (level + 1))
      | closes => exact Nat.le_max_left _ _

@[simp] theorem inText_append (first second : String) :
    inText (first ++ second) = inText first ++ inText second := by
  simp [inText]

theorem ofChar?_of_isBlank {character : Char} (blank : Text.isBlank character = true) :
    ofChar? character = none := by
  unfold ofChar?
  split
  · exact absurd blank (by decide)
  · exact absurd blank (by decide)
  · rfl

theorem filterMap_dropWhile_isBlank (text : List Char) :
    (text.dropWhile Text.isBlank).filterMap ofChar? = text.filterMap ofChar? := by
  induction text with
  | nil => rfl
  | cons character rest ih =>
      cases blank : Text.isBlank character with
      | true =>
          rw [List.dropWhile_cons_of_pos blank, ih,
            List.filterMap_cons_none (ofChar?_of_isBlank blank)]
      | false => rw [List.dropWhile_cons_of_neg (by simp [blank])]

theorem inText_trimText (text : String) : inText (Text.trimText text) = inText text := by
  rw [inText, Text.trimText, String.toList_ofList, Text.trim, Text.trimEnd, Text.trimStart,
    List.filterMap_reverse, filterMap_dropWhile_isBlank, List.filterMap_reverse, List.reverse_reverse,
    filterMap_dropWhile_isBlank, inText]

end Parenthesis

namespace Piece

def parenthesis? : Piece → Option Parenthesis
  | opens => some .opens
  | closes => some .closes
  | _ => none

end Piece

namespace Forest

def parentheses (row : Forest) : List Parenthesis := row.pieces.filterMap Piece.parenthesis?

theorem filterMap_parenthesis?_link (row : Forest) :
    row.link.filterMap Piece.parenthesis? = [] := by
  rw [link]
  cases row.leading? <;> rfl

theorem parentheses_clause (id : NodeId) (body : Clause) (rest : Forest) :
    (clause id body rest).parentheses = rest.parentheses := by
  rw [parentheses, pieces, List.filterMap_cons_none rfl, List.filterMap_append,
    filterMap_parenthesis?_link, List.nil_append, parentheses]

theorem parentheses_group (id : NodeId) (members rest : Forest) :
    (group id members rest).parentheses =
      .opens :: (members.parentheses ++ .closes :: rest.parentheses) := by
  simp [parentheses, pieces, Piece.parenthesis?, filterMap_parenthesis?_link]

theorem nesting_parentheses (row : Forest) (level : Nat) (later : List Parenthesis) :
    Parenthesis.nesting level (row.parentheses ++ later) =
      max (level + row.height) (Parenthesis.nesting level later) := by
  induction row generalizing level later with
  | nil => exact (Nat.max_eq_right (Parenthesis.le_nesting level later)).symm
  | clause id body rest ih =>
      rw [parentheses_clause]
      exact ih level later
  | group id members rest inner ih =>
      have closed : Parenthesis.nesting (level + 1) (.closes :: (rest.parentheses ++ later)) =
          max (level + 1) (max (level + rest.height) (Parenthesis.nesting level later)) := by
        rw [Parenthesis.nesting, Nat.add_sub_cancel, ih]
      rw [parentheses_group, List.cons_append, List.append_assoc, List.cons_append,
        Parenthesis.nesting, inner, closed, height]
      omega

theorem exists_entry_of_mem_pieces {row : Forest} {clause : Clause}
    (member : Piece.comparison clause ∈ row.pieces) : ∃ entry ∈ row.clauses, entry.2 = clause := by
  have notLink : ∀ row : Forest, Piece.comparison clause ∉ row.link := by
    intro row member
    obtain ⟨_, _, wrong⟩ := List.mem_map.mp member
    cases wrong
  induction row with
  | nil => exact absurd member List.not_mem_nil
  | clause id body rest ih =>
      simp only [pieces, List.mem_cons, List.mem_append, notLink, false_or,
        Piece.comparison.injEq] at member
      rcases member with rfl | later
      · exact ⟨(id, clause), List.mem_cons_self, rfl⟩
      · obtain ⟨entry, listed, same⟩ := ih later
        exact ⟨entry, List.mem_cons_of_mem _ listed, same⟩
  | group id members rest inner ih =>
      simp only [pieces, List.mem_cons, List.mem_append, notLink, reduceCtorEq, false_or] at member
      rcases member with here | later
      · obtain ⟨entry, listed, same⟩ := inner here
        exact ⟨entry, List.mem_append_left _ listed, same⟩
      · obtain ⟨entry, listed, same⟩ := ih later
        exact ⟨entry, List.mem_append_right _ listed, same⟩

end Forest

namespace Style

variable {style : Style} {clock : Clock} {text : String}

def Bare (style : Style) (clock : Clock) (clause : Clause) : Prop :=
  ∀ text, style.writeClause clock clause = .ok text → Parenthesis.inText text = []

theorem inText_joiner (word : Combinator) :
    Parenthesis.inText (" " ++ word.word ++ " ") = [] := by
  cases word <;> decide

theorem inText_printPiece {piece : Piece}
    (bare : ∀ clause, piece = .comparison clause → style.Bare clock clause)
    (printed : style.printPiece clock piece = .ok text) :
    Parenthesis.inText text = piece.parenthesis?.toList := by
  cases piece with
  | opens => cases printed; decide
  | closes => cases printed; decide
  | comparison clause => exact bare clause rfl text printed
  | joiner word => cases printed; exact inText_joiner word

theorem inText_print {pieces : List Piece}
    (bare : ∀ clause, .comparison clause ∈ pieces → style.Bare clock clause)
    (printed : style.print clock pieces = .ok text) :
    Parenthesis.inText text = pieces.filterMap Piece.parenthesis? := by
  induction pieces generalizing text with
  | nil => cases printed; rfl
  | cons piece later ih =>
      rw [print_cons] at printed
      obtain ⟨before, first, printed⟩ := exists_ok_of_bind printed
      obtain ⟨after, second, printed⟩ := exists_ok_of_bind printed
      cases printed
      have here := inText_printPiece
        (fun clause same => bare clause (same ▸ List.mem_cons_self)) first
      have beyond := ih (fun clause member => bare clause (List.mem_cons_of_mem _ member)) second
      rw [Parenthesis.inText_append, here, beyond]
      cases shown : piece.parenthesis? <;> simp [shown]

theorem inText_preamble {tree : Tree} {options : QueryOptions}
    (bareHead : ∀ head, style.head? options = some head → Parenthesis.inText head = []) :
    Parenthesis.inText (style.preamble tree options) = [] := by
  rw [preamble]
  cases begins : style.head? options with
  | none => rfl
  | some head =>
      have clean := bareHead head begins
      have word : Parenthesis.inText " WHERE" = [] := by decide
      dsimp only
      split
      · exact clean
      · rw [Parenthesis.inText_append, clean, word, List.nil_append]

theorem inText_write {tree : Tree} (sound : tree.Sound) {options : QueryOptions}
    (bareHead : ∀ head, style.head? options = some head → Parenthesis.inText head = [])
    (bare : ∀ entry ∈ tree.clauses, style.Bare options.clock entry.2)
    (written : style.write tree options = .ok text) :
    Parenthesis.inText text = tree.row.parentheses := by
  rw [style.write_eq tree sound options] at written
  obtain ⟨conditions, printed, written⟩ := exists_ok_of_bind written
  cases written
  have blank : Parenthesis.inText " " = [] := by decide
  have all : ∀ clause, .comparison clause ∈ tree.row.pieces → style.Bare options.clock clause := by
    intro clause member
    obtain ⟨entry, listed, rfl⟩ := Forest.exists_entry_of_mem_pieces member
    exact bare entry listed
  rw [Parenthesis.inText_trimText, Parenthesis.inText_append, Parenthesis.inText_append,
    inText_preamble bareHead, blank, inText_print all printed, List.nil_append, List.nil_append,
    Forest.parentheses]

end Style

theorem Tree.Sound.nesting_parentheses {tree : Tree} (sound : tree.Sound) :
    Parenthesis.nesting 0 tree.row.parentheses = tree.depth NodeId.root := by
  have whole : tree.row = tree.row.within [] := rfl
  have deep := tree.row.nesting_parentheses 0 []
  rw [List.append_nil, Parenthesis.nesting, Nat.max_zero] at deep
  rw [deep, ← Layer.holder, sound.depth_holder whole, List.length_nil]

end WhereEditor
