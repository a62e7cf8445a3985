import WhereEditor.Command.Print
import WhereEditor.Proofs.Command.Grammar
import WhereEditor.Proofs.Text.Decimal

/-!
Commands printed and read again. Main statement: the line that is printed for a command is read as
that command, if it can be typed at all.
-/

namespace WhereEditor

open String (utf8Len)

/-! ## Words with single blanks between them -/

namespace Token

inductive Written : String → String → Prop
  | plain {word : String} (inhabited : word ≠ "")
      (plain : ∀ character ∈ word.toList, isPlain character = true) : Written word word
  | quoted {text : String} (noQuote : '"' ∉ text.toList) :
      Written text (Command.quotedText text)

theorem Written.of_all {word : String} (inhabited : word ≠ "")
    (plain : word.toList.all isPlain = true) : Written word word :=
  .plain inhabited (List.all_eq_true.mp plain)

theorem Written.exists_token {word piece : String} (written : Written word piece) (span : Span) :
    ∃ token : Token, token.Spells word ∧ token.WellFormed ∧ token.source = piece.toList ∧
      token.span = span := by
  cases written with
  | plain inhabited plain =>
      exact ⟨⟨.word, word, span⟩, ⟨by simp, rfl⟩, ⟨inhabited, plain⟩, rfl, rfl⟩
  | quoted noQuote =>
      refine ⟨⟨.quoted, word, span⟩, ⟨by simp, rfl⟩, noQuote, ?_, rfl⟩
      simp [source, Command.quotedText]

def spaced (pieces : List String) : List Char := pieces.flatMap fun piece => ' ' :: piece.toList

theorem exists_scan_eq {word piece : String} (written : Written word piece) (gap : List Char)
    (blank : ∀ character ∈ gap, Text.isBlank character = true) (position : Nat)
    (pieces : List String) :
    ∃ token : Token, token.Spells word ∧
      scan .between position (gap ++ (piece.toList ++ spaced pieces)) =
        token :: scan .between token.span.stop (spaced pieces) := by
  let start := position + utf8Len gap
  obtain ⟨token, spells, wellFormed, source, span⟩ :=
    written.exists_token ⟨start, start + utf8Len piece.toList⟩
  refine ⟨token, spells, Front.scan_eq ⟨⟨⟨gap, ?_, blank, ?_⟩, ?_⟩, wellFormed, ?_⟩⟩
  · rw [source]
  · rw [span]
  · rw [source, span]
  · rw [EndsBefore]
    cases form : token.form with
    | word =>
        intro first behind
        cases pieces with
        | nil => cases behind
        | cons next others =>
            cases behind
            decide
    | quoted => trivial
    | unclosed => exact absurd form spells.1

theorem forall₂_spells_scan {words pieces : List String}
    (written : List.Forall₂ Written words pieces) (position : Nat) :
    List.Forall₂ Spells (scan .between position (spaced pieces)) words := by
  induction written generalizing position with
  | nil => exact .nil
  | cons here _ ih =>
      rename_i word piece words pieces _
      have blank : ∀ character ∈ [' '], Text.isBlank character = true :=
        List.forall_mem_singleton.mpr rfl
      obtain ⟨token, spells, scanned⟩ := exists_scan_eq here [' '] blank position pieces
      have whole : spaced (piece :: pieces) = [' '] ++ (piece.toList ++ spaced pieces) := by
        simp [spaced]
      rw [whole, scanned]
      exact .cons spells (ih _)

theorem toList_intercalate_cons (piece : String) (pieces : List String) :
    (" ".intercalate (piece :: pieces)).toList = piece.toList ++ spaced pieces := by
  induction pieces generalizing piece with
  | nil => simp [spaced]
  | cons next others ih =>
      rw [String.intercalate_cons_cons, String.toList_append, ih]
      simp [spaced]

theorem forall₂_spells_ofLine {words pieces : List String}
    (written : List.Forall₂ Written words pieces) :
    List.Forall₂ Spells (ofLine (" ".intercalate pieces)) words := by
  cases written with
  | nil => exact .nil
  | cons here further =>
      rename_i word piece words pieces
      obtain ⟨token, spells, scanned⟩ := exists_scan_eq here [] (by simp) 0 pieces
      rw [ofLine, toList_intercalate_cons]
      rw [List.nil_append] at scanned
      rw [scanned]
      exact .cons spells (forall₂_spells_scan further _)

theorem isPlain_of_isDigit {character : Char} (digit : character.isDigit = true) :
    isPlain character = true := by
  have bounds : 48 ≤ character.toNat ∧ character.toNat ≤ 57 := by
    simpa [Char.isDigit, UInt32.le_iff_toNat_le] using digit
  have notQuote : character ≠ '"' := by
    rintro rfl
    exact absurd bounds.1 (by decide)
  simp only [isPlain, Text.isBlank, Bool.and_eq_true, bne_iff_ne, ne_eq, notQuote,
    not_false_eq_true, and_true, Bool.not_eq_true', Bool.or_eq_false_iff, Bool.and_eq_false_iff,
    decide_eq_false_iff_not, beq_eq_false_iff_ne]
  omega

theorem written_toString (number : Nat) : Written (toString number) (toString number) := by
  refine .plain ?_ fun _ member => isPlain_of_isDigit (Text.isDigit_of_mem_toString member)
  simp

theorem written_label (id : NodeId) : Written id.label id.label := by
  refine .plain (by simp [NodeId.label]) ?_
  intro character member
  rw [NodeId.label, String.toList_append, List.mem_append] at member
  rcases member with mark | digit
  · obtain rfl : character = '#' := by simpa using mark
    decide
  · exact isPlain_of_isDigit (Text.isDigit_of_mem_toString digit)

end Token

/-! ## Names that are read as what they name -/

theorem NodeId.ofText?_label {id : NodeId} (small : id < Text.bound64) :
    NodeId.ofText? id.label = some id := by
  have marks : id.label.toList.dropWhile (· == '#') = (toString id).toList := by
    have digits : (toString id).toList.dropWhile (· == '#') = (toString id).toList := by
      refine List.dropWhile_eq_self_iff.mpr fun inhabited => ?_
      have digit := Text.isDigit_of_mem_toString (List.getElem_mem inhabited)
      intro mark
      rw [beq_iff_eq] at mark
      rw [mark] at digit
      exact absurd digit (by decide)
    rw [NodeId.label, String.toList_append]
    exact digits
  rw [NodeId.ofText?, marks, Text.index?_toString small]

theorem Operator.ofText?_symbol (operator : Operator) :
    Operator.ofText? operator.symbol = some operator := by
  cases operator <;> decide +kernel

theorem Dialect.ofText?_name (dialect : Dialect) : Dialect.ofText? dialect.name = some dialect := by
  cases dialect <;> decide +kernel

theorem Preset.ofText?_label (window : Preset) : Preset.ofText? window.label = some window := by
  cases window <;> decide +kernel

theorem Operator.written_symbol (operator : Operator) :
    Token.Written operator.symbol operator.symbol := by
  cases operator <;> exact .of_all (by decide) (by decide)

theorem Dialect.written_name (dialect : Dialect) : Token.Written dialect.name dialect.name := by
  cases dialect <;> exact .of_all (by decide) (by decide)

theorem Preset.exists_words (window : Preset) :
    ∃ words, " ".intercalate words = window.label ∧ words ≠ [] ∧
      ∀ word ∈ words, Token.Written word word := by
  have written {words : List String}
      (plain : ∀ word ∈ words, word ≠ "" ∧ word.toList.all Token.isPlain = true) :
      ∀ word ∈ words, Token.Written word word :=
    fun word member => .of_all (plain word member).1 (plain word member).2
  cases window with
  | lastHour => exact ⟨["Last", "hour"], rfl, by simp, written (by decide)⟩
  | last24Hours => exact ⟨["Last", "24", "hours"], rfl, by simp, written (by decide)⟩
  | last7Days => exact ⟨["Last", "7", "days"], rfl, by simp, written (by decide)⟩
  | last31Days => exact ⟨["Last", "31", "days"], rfl, by simp, written (by decide)⟩
  | last365Days => exact ⟨["Last", "365", "days"], rfl, by simp, written (by decide)⟩
  | currentMonth => exact ⟨["Current", "month"], rfl, by simp, written (by decide)⟩
  | currentYear => exact ⟨["Current", "year"], rfl, by simp, written (by decide)⟩

namespace Command

/-! ## What can be typed -/

def numbers : Command → List Nat
  | add position _ => position.toList
  | delete id | field id _ | type id _ | operator id _ | value id _ | preset id _ | range id _ _ _
  | combinator id _ | ungroup id => [id]
  | select ids | unselect ids => ids
  | group | list | compile _ _ | sample _ _ | clear | help | quit => []

def texts : Command → List String
  | add _ name => name.toList
  | field _ text | type _ text | value _ text => [text]
  | range _ start stop _ => [start, stop]
  | compile _ columns => columns
  | sample partitionKey rowKey => [partitionKey, rowKey]
  | delete _ | operator _ _ | preset _ _ | combinator _ _ | select _ | unselect _ | group
  | ungroup _ | list | clear | help | quit => []

/-- A command that can be typed: its numbers fit, no text holds a quote, and nothing that comes
first is taken for something else. -/
structure Typeable (command : Command) : Prop where
  small : ∀ number ∈ command.numbers, number < Text.bound64
  noQuote : ∀ text ∈ command.texts, '"' ∉ text.toList
  joins : ∀ id, command ≠ combinator id .none
  selects : command ≠ select [] ∧ command ≠ unselect []
  fieldFirst : ∀ field, command = add none (some field) → Text.index? field.toList = none
  columnFirst : ∀ column others, command = compile none (column :: others) →
    Dialect.ofText? column = none

theorem Follows.toLower_eq {name : String} {words : List String} {command : Command}
    (follows : Follows name words command) : name.toLower = name := by
  cases follows with
  | delete named | list named | help named | quit named =>
      obtain rfl | rfl := named <;> decide +kernel
  | _ => decide +kernel

theorem Follows.written_name {name : String} {words : List String} {command : Command}
    (follows : Follows name words command) : Token.Written name name := by
  have plain : name ≠ "" ∧ name.toList.all Token.isPlain = true := by
    cases follows with
    | delete named | list named | help named | quit named => obtain rfl | rfl := named <;> decide
    | _ => decide
  exact .of_all plain.1 plain.2

/-- Words with single blanks between them are read as the command that they are a sentence for. -/
theorem ofLine?_intercalate {name : String} {words pieces : List String} {command : Command}
    (follows : Follows name words command) (written : List.Forall₂ Token.Written words pieces) :
    ofLine? (" ".intercalate (name :: pieces)) = .ok (some command) := by
  obtain ⟨head, tokens, spells, spelled, whole⟩ := List.forall₂_cons_right_iff.mp
    (Token.forall₂_spells_ofLine (.cons follows.written_name written))
  rw [ofLine?_eq_some_iff]
  refine ⟨head, tokens, words, whole, spelled, ?_⟩
  rw [spells.2, follows.toLower_eq]
  exact follows

theorem forall₂_written_quoted {texts : List String}
    (noQuote : ∀ text ∈ texts, '"' ∉ text.toList) :
    List.Forall₂ Token.Written texts (texts.map quotedText) := by
  rw [List.forall₂_map_right_iff, List.forall₂_same]
  exact fun text member => .quoted (noQuote text member)

theorem forall₂_written_label (ids : List NodeId) :
    List.Forall₂ Token.Written (ids.map NodeId.label) (ids.map NodeId.label) :=
  List.forall₂_same.mpr (List.forall_mem_map.mpr fun id _ => Token.written_label id)

theorem forall₂_ofText?_label {ids : List NodeId} (small : ∀ id ∈ ids, id < Text.bound64) :
    List.Forall₂ (fun word id => NodeId.ofText? word = some id) (ids.map NodeId.label) ids := by
  rw [List.forall₂_map_left_iff, List.forall₂_same]
  exact fun id member => NodeId.ofText?_label (small id member)

theorem print_preset (id : NodeId) (window : Preset) {label : List String}
    (inhabited : label ≠ []) (printed : " ".intercalate label = window.label) :
    print (preset id window) = " ".intercalate ("preset" :: id.label :: label) := by
  obtain ⟨first, others, rfl⟩ := List.exists_cons_of_ne_nil inhabited
  simp only [print, words, String.intercalate_cons_cons, String.intercalate_singleton, ← printed]

/-- What is printed for a command that can be typed is read as that command. -/
theorem ofLine?_print (command : Command) (typeable : command.Typeable) :
    ofLine? command.print = .ok (some command) := by
  obtain ⟨small, noQuote, joins, selects, fieldFirst, columnFirst⟩ := typeable
  have quoted (texts : List String) (among : ∀ text ∈ texts, text ∈ command.texts) :
      List.Forall₂ Token.Written texts (texts.map quotedText) :=
    forall₂_written_quoted fun text member => noQuote text (among text member)
  have reads {id : NodeId} (among : id ∈ command.numbers) : NodeId.ofText? id.label = some id :=
    NodeId.ofText?_label (small id among)
  have label (id : NodeId) : Token.Written id.label id.label := Token.written_label id
  cases command with
  | add position field =>
      cases position with
      | none =>
          cases field with
          | none => exact ofLine?_intercalate (.add .last) .nil
          | some field =>
              exact ofLine?_intercalate (.add (.field (fieldFirst field rfl)))
                (quoted [field] (by simp [texts]))
      | some position =>
          have number := Token.written_toString position
          have known := Text.index?_toString (small position (by simp [numbers]))
          cases field with
          | none => exact ofLine?_intercalate (.add (.position known)) (.cons number .nil)
          | some field =>
              exact ofLine?_intercalate (.add (.both field known))
                (.cons number (quoted [field] (by simp [texts])))
  | delete id =>
      exact ofLine?_intercalate (.delete (.inl rfl) (reads (by simp [numbers])))
        (.cons (label id) .nil)
  | field id text =>
      exact ofLine?_intercalate (.field (reads (by simp [numbers])) text)
        (.cons (label id) (quoted _ (by simp [texts])))
  | type id text =>
      exact ofLine?_intercalate (.type (reads (by simp [numbers])) text)
        (.cons (label id) (quoted _ (by simp [texts])))
  | operator id chosen =>
      exact ofLine?_intercalate (.operator (reads (by simp [numbers])) chosen.ofText?_symbol)
        (.cons (label id) (.cons chosen.written_symbol .nil))
  | value id text =>
      exact ofLine?_intercalate (.value (reads (by simp [numbers])) text)
        (.cons (label id) (quoted _ (by simp [texts])))
  | preset id window =>
      obtain ⟨words, printed, inhabited, written⟩ := window.exists_words
      have known : Preset.ofText? (" ".intercalate words) = some window := by
        rw [printed, Preset.ofText?_label]
      rw [print_preset id window inhabited printed]
      exact ofLine?_intercalate (.preset (reads (by simp [numbers])) inhabited known)
        (.cons (label id) (List.forall₂_same.mpr written))
  | range id start stop isLocal =>
      have bounds := quoted [start, stop] (by simp [texts])
      have zone : List.Forall₂ Token.Written [if isLocal then "local" else "utc"]
          [if isLocal then "local" else "utc"] := by
        cases isLocal <;> exact .cons (.of_all (by decide) (by decide)) .nil
      refine ofLine?_intercalate (.range (reads (by simp [numbers])) start stop ?_)
        (.cons (label id) (List.rel_append bounds zone))
      cases isLocal
      · exact .inr ⟨rfl, rfl⟩
      · exact .inl ⟨rfl, rfl⟩
  | combinator id joiner =>
      cases joiner with
      | none => exact absurd rfl (joins id)
      | and => exact ofLine?_intercalate (.and (reads (by simp [numbers]))) (.cons (label id) .nil)
      | or => exact ofLine?_intercalate (.or (reads (by simp [numbers]))) (.cons (label id) .nil)
  | select ids =>
      have inhabited : ids.map NodeId.label ≠ [] := by simpa using selects.1
      exact ofLine?_intercalate (.select inhabited (forall₂_ofText?_label small))
        (forall₂_written_label ids)
  | unselect ids =>
      have inhabited : ids.map NodeId.label ≠ [] := by simpa using selects.2
      exact ofLine?_intercalate (.unselect inhabited (forall₂_ofText?_label small))
        (forall₂_written_label ids)
  | group => exact ofLine?_intercalate .group .nil
  | ungroup id =>
      exact ofLine?_intercalate (.ungroup (reads (by simp [numbers]))) (.cons (label id) .nil)
  | list => exact ofLine?_intercalate (.list (.inl rfl)) .nil
  | compile dialect columns =>
      cases dialect with
      | none =>
          refine ofLine?_intercalate (.compile (.columns columns ?_)) (quoted _ (by simp [texts]))
          intro first front
          obtain ⟨others, rfl⟩ := List.head?_eq_some_iff.mp front
          exact columnFirst first others rfl
      | some dialect =>
          exact ofLine?_intercalate (.compile (.dialect columns dialect.ofText?_name))
            (.cons dialect.written_name (quoted _ (by simp [texts])))
  | sample partitionKey rowKey =>
      exact ofLine?_intercalate (.sample partitionKey rowKey) (quoted _ (by simp [texts]))
  | clear => exact ofLine?_intercalate .clear .nil
  | help => exact ofLine?_intercalate (.help (.inl rfl)) .nil
  | quit => exact ofLine?_intercalate (.quit (.inl rfl)) .nil

/-- Columns named like other things, of which only the first could be taken for a dialect. -/
theorem ofLine?_print_columns :
    (compile none ["#1 local", "sql", ""]).Typeable ∧
      ofLine? (compile none ["#1 local", "sql", ""]).print =
        .ok (some (compile none ["#1 local", "sql", ""])) := by
  have typeable : (compile none ["#1 local", "sql", ""]).Typeable := by
    refine ⟨by simp [numbers], by simp [texts], by simp, by simp, by simp, ?_⟩
    intro column others same
    cases same
    decide +kernel
  exact ⟨typeable, ofLine?_print _ typeable⟩

end Command

end WhereEditor
