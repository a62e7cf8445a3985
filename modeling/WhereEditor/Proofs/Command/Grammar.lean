import WhereEditor.Proofs.Command.Arguments
import WhereEditor.Proofs.Command.Tiling

/-!
The grammar of command lines: after the name of a command the words that may follow it, and nothing
more. Main statements: a line with no quote left open is read as a command exactly if its words are
a sentence for it, is nothing exactly if it is blank, and is an error otherwise; where a quote is
left open, only the name of a command can be the token that is not closed.
-/

namespace WhereEditor.Command

open Arguments

inductive Follows : String → List String → Command → Prop
  | add {words place} (placed : Placed words place) : Follows "add" words (add place.1 place.2)
  | delete {name word id} (named : name = "del" ∨ name = "delete")
      (reads : NodeId.ofText? word = some id) : Follows name [word] (delete id)
  | field {word id} (reads : NodeId.ofText? word = some id) (field : String) :
      Follows "field" [word, field] (Command.field id field)
  | type {word id} (reads : NodeId.ofText? word = some id) (type : String) :
      Follows "type" [word, type] (Command.type id type)
  | operator {word id symbol chosen} (reads : NodeId.ofText? word = some id)
      (spelled : Operator.ofText? symbol = some chosen) :
      Follows "op" [word, symbol] (operator id chosen)
  | noValue {word id} (reads : NodeId.ofText? word = some id) :
      Follows "value" [word] (value id "")
  | value {word id} (reads : NodeId.ofText? word = some id) (text : String) :
      Follows "value" [word, text] (Command.value id text)
  | preset {word id label window} (reads : NodeId.ofText? word = some id) (inhabited : label ≠ [])
      (named : Preset.ofText? (" ".intercalate label) = some window) :
      Follows "preset" (word :: label) (preset id window)
  | localRange {word id} (reads : NodeId.ofText? word = some id) (start stop : String) :
      Follows "range" [word, start, stop] (range id start stop true)
  | range {word id zone isLocal} (reads : NodeId.ofText? word = some id) (start stop : String)
      (said : zone = "local" ∧ isLocal = true ∨ zone = "utc" ∧ isLocal = false) :
      Follows "range" [word, start, stop, zone] (Command.range id start stop isLocal)
  | and {word id} (reads : NodeId.ofText? word = some id) :
      Follows "and" [word] (combinator id .and)
  | or {word id} (reads : NodeId.ofText? word = some id) :
      Follows "or" [word] (combinator id .or)
  | select {words ids} (inhabited : words ≠ [])
      (reads : List.Forall₂ (fun word id => NodeId.ofText? word = some id) words ids) :
      Follows "select" words (select ids)
  | unselect {words ids} (inhabited : words ≠ [])
      (reads : List.Forall₂ (fun word id => NodeId.ofText? word = some id) words ids) :
      Follows "unselect" words (unselect ids)
  | group : Follows "group" [] group
  | ungroup {word id} (reads : NodeId.ofText? word = some id) :
      Follows "ungroup" [word] (ungroup id)
  | list {name} (named : name = "list" ∨ name = "ls") : Follows name [] list
  | compile {words wanted} (asked : Wanted words wanted) :
      Follows "compile" words (compile wanted.1 wanted.2)
  | sample (partitionKey rowKey : String) :
      Follows "example" [partitionKey, rowKey] (sample partitionKey rowKey)
  | clear : Follows "clear" [] clear
  | help {name} (named : name = "help" ∨ name = "?") : Follows name [] help
  | quit {name} (named : name = "quit" ∨ name = "exit") : Follows name [] quit

variable {name : String} {tokens : List Token} {command : Command}

theorem follows_of_run {reader : Arguments Command} (named : ofName? name = some reader)
    (ran : reader tokens = .ok (command, [])) :
    ∃ words, List.Forall₂ Token.Spells tokens words ∧ Follows name words command := by
  unfold ofName? at named
  split at named <;> cases named <;>
    simp only [bind_eq_ok_iff, pure_eq_ok_iff, id_eq_ok_iff, text_eq_ok_iff, operator_eq_ok_iff,
      next?_eq_ok_iff, preset_eq_ok_iff, isLocal_eq_ok_iff, ids_eq_ok_iff, target_eq_ok_iff] at ran
  case h_1 =>
      obtain ⟨place, _, placed, rfl, rfl⟩ := ran
      obtain ⟨words, spelled, placed⟩ := placement_eq_ok_iff.mp placed
      exact ⟨words, spelled, .add placed⟩
  case h_2 | h_3 =>
      obtain ⟨id, _, ⟨token, word, rfl, spelled, reads⟩, rfl, rfl⟩ := ran
      exact ⟨[word], .cons spelled .nil, .delete (by simp) reads⟩
  case h_4 =>
      obtain ⟨id, _, ⟨token, word, rfl, spelled, reads⟩, field, _, ⟨next, rfl, written⟩,
        rfl, rfl⟩ := ran
      exact ⟨[word, field], .cons spelled (.cons written .nil), .field reads field⟩
  case h_5 =>
      obtain ⟨id, _, ⟨token, word, rfl, spelled, reads⟩, type, _, ⟨next, rfl, written⟩,
        rfl, rfl⟩ := ran
      exact ⟨[word, type], .cons spelled (.cons written .nil), .type reads type⟩
  case h_6 =>
      obtain ⟨id, _, ⟨token, word, rfl, spelled, reads⟩, chosen, _,
        ⟨next, symbol, rfl, written, known⟩, rfl, rfl⟩ := ran
      exact ⟨[word, symbol], .cons spelled (.cons written .nil), .operator reads known⟩
  case h_7 =>
      obtain ⟨id, _, ⟨token, word, rfl, spelled, reads⟩, _, _,
        ⟨rfl, _, rfl⟩ | ⟨next, rfl, written, rfl⟩, rfl, ends⟩ := ran
      · exact ⟨[word], .cons spelled .nil, .noValue reads⟩
      · subst ends
        exact ⟨[word, next.text], .cons spelled (.cons written .nil), .value reads next.text⟩
  case h_8 =>
      obtain ⟨id, _, ⟨token, word, rfl, spelled, reads⟩, window, _,
        ⟨rfl, words, inhabited, written, known⟩, rfl, _⟩ := ran
      exact ⟨word :: words, .cons spelled written, .preset reads inhabited known⟩
  case h_9 =>
      obtain ⟨id, _, ⟨token, word, rfl, spelled, reads⟩, start, _, ⟨first, rfl, opens⟩, stop, _,
        ⟨second, rfl, closes⟩, isLocal, _, zone, rfl, ends⟩ := ran
      subst ends
      obtain ⟨rfl, _, rfl⟩ | ⟨third, rfl, said⟩ := zone
      · exact ⟨[word, start, stop], .cons spelled (.cons opens (.cons closes .nil)),
          .localRange reads start stop⟩
      · obtain ⟨said, rfl⟩ | ⟨said, rfl⟩ := said
        · exact ⟨[word, start, stop, "local"],
            .cons spelled (.cons opens (.cons closes (.cons said .nil))),
            .range reads start stop (by simp)⟩
        · exact ⟨[word, start, stop, "utc"],
            .cons spelled (.cons opens (.cons closes (.cons said .nil))),
            .range reads start stop (by simp)⟩
  case h_10 =>
      obtain ⟨id, _, ⟨token, word, rfl, spelled, reads⟩, rfl, rfl⟩ := ran
      exact ⟨[word], .cons spelled .nil, .and reads⟩
  case h_11 =>
      obtain ⟨id, _, ⟨token, word, rfl, spelled, reads⟩, rfl, rfl⟩ := ran
      exact ⟨[word], .cons spelled .nil, .or reads⟩
  case h_12 =>
      obtain ⟨ids, _, ⟨rfl, words, inhabited, spelled, reads⟩, rfl, _⟩ := ran
      exact ⟨words, spelled, .select inhabited reads⟩
  case h_13 =>
      obtain ⟨ids, _, ⟨rfl, words, inhabited, spelled, reads⟩, rfl, _⟩ := ran
      exact ⟨words, spelled, .unselect inhabited reads⟩
  case h_14 =>
      obtain ⟨rfl, rfl⟩ := ran
      exact ⟨[], .nil, .group⟩
  case h_15 =>
      obtain ⟨id, _, ⟨token, word, rfl, spelled, reads⟩, rfl, rfl⟩ := ran
      exact ⟨[word], .cons spelled .nil, .ungroup reads⟩
  case h_16 | h_17 =>
      obtain ⟨rfl, rfl⟩ := ran
      exact ⟨[], .nil, .list (by simp)⟩
  case h_18 =>
      obtain ⟨wanted, _, ⟨rfl, words, spelled, asked⟩, rfl, _⟩ := ran
      exact ⟨words, spelled, .compile asked⟩
  case h_19 =>
      obtain ⟨partitionKey, _, ⟨token, rfl, spelled⟩, rowKey, _, ⟨next, rfl, written⟩,
        rfl, rfl⟩ := ran
      exact ⟨[partitionKey, rowKey], .cons spelled (.cons written .nil),
        .sample partitionKey rowKey⟩
  case h_20 =>
      obtain ⟨rfl, rfl⟩ := ran
      exact ⟨[], .nil, .clear⟩
  case h_21 | h_22 =>
      obtain ⟨rfl, rfl⟩ := ran
      exact ⟨[], .nil, .help (by simp)⟩
  case h_23 | h_24 =>
      obtain ⟨rfl, rfl⟩ := ran
      exact ⟨[], .nil, .quit (by simp)⟩

/-! ## Running a reader on words of its kind -/

theorem run_end {words : List String} (spelled : List.Forall₂ Token.Spells tokens words)
    (ends : words = []) : (pure command : Arguments Command) tokens = .ok (command, []) := by
  subst ends
  cases spelled
  rfl

theorem run_id {further : NodeId → Arguments Command} {word : String} {words : List String}
    {id : NodeId} (reads : NodeId.ofText? word = some id)
    (spelled : List.Forall₂ Token.Spells tokens (word :: words))
    (later : ∀ {rest}, List.Forall₂ Token.Spells rest words →
      further id rest = .ok (command, [])) :
    (Arguments.id >>= further) tokens = .ok (command, []) := by
  obtain ⟨token, rest, here, behind, rfl⟩ := List.forall₂_cons_right_iff.mp spelled
  refine bind_eq_ok_iff.mpr ⟨id, rest, ?_, later behind⟩
  exact id_eq_ok_iff.mpr ⟨token, word, rfl, here, reads⟩

theorem run_text {further : String → Arguments Command} {what : Missing} {word : String}
    {words : List String} (spelled : List.Forall₂ Token.Spells tokens (word :: words))
    (later : ∀ {rest}, List.Forall₂ Token.Spells rest words →
      further word rest = .ok (command, [])) :
    (text what >>= further) tokens = .ok (command, []) := by
  obtain ⟨token, rest, here, behind, rfl⟩ := List.forall₂_cons_right_iff.mp spelled
  refine bind_eq_ok_iff.mpr ⟨word, rest, ?_, later behind⟩
  exact text_eq_ok_iff.mpr ⟨token, rfl, here⟩

theorem run_last {α : Type} {reader : Arguments α} {value : α} {make : α → Command}
    (taken : reader tokens = .ok (value, [])) (made : make value = command) :
    (reader >>= fun value => pure (make value)) tokens = .ok (command, []) :=
  bind_eq_ok_iff.mpr ⟨value, [], taken, pure_eq_ok_iff.mpr ⟨made, rfl⟩⟩

theorem exists_reader {words : List String} (follows : Follows name words command)
    (spelled : List.Forall₂ Token.Spells tokens words) :
    ∃ reader, ofName? name = some reader ∧ reader tokens = .ok (command, []) := by
  cases follows with
  | add placed =>
      exact ⟨_, rfl, run_last (placement_eq_ok_iff.mpr ⟨words, spelled, placed⟩) rfl⟩
  | delete named reads =>
      obtain rfl | rfl := named
      all_goals exact ⟨_, rfl, run_id reads spelled fun ends => run_end ends rfl⟩
  | field reads field =>
      refine ⟨_, rfl, run_id reads spelled fun spelled => ?_⟩
      exact run_text spelled fun ends => run_end ends rfl
  | type reads type =>
      refine ⟨_, rfl, run_id reads spelled fun spelled => ?_⟩
      exact run_text spelled fun ends => run_end ends rfl
  | operator reads known =>
      refine ⟨_, rfl, run_id reads spelled fun spelled => ?_⟩
      obtain ⟨token, _, here, ⟨⟩, rfl⟩ := List.forall₂_cons_right_iff.mp spelled
      exact run_last (operator_eq_ok_iff.mpr ⟨token, _, rfl, here, known⟩) rfl
  | noValue reads =>
      refine ⟨_, rfl, run_id reads spelled fun ends => ?_⟩
      cases ends
      exact run_last (next?_eq_ok_iff.mpr (.inl ⟨rfl, rfl, rfl⟩)) rfl
  | value reads text =>
      refine ⟨_, rfl, run_id reads spelled fun spelled => ?_⟩
      obtain ⟨token, _, ⟨closed, rfl⟩, ⟨⟩, rfl⟩ := List.forall₂_cons_right_iff.mp spelled
      exact run_last (next?_eq_ok_iff.mpr (.inr ⟨token, rfl, ⟨closed, rfl⟩, rfl⟩)) rfl
  | preset reads inhabited known =>
      refine ⟨_, rfl, run_id reads spelled fun spelled => ?_⟩
      exact run_last (preset_eq_ok_iff.mpr ⟨rfl, _, inhabited, spelled, known⟩) rfl
  | localRange reads start stop =>
      refine ⟨_, rfl, run_id reads spelled fun spelled => run_text spelled fun spelled => ?_⟩
      refine run_text spelled fun ends => ?_
      cases ends
      exact run_last (isLocal_eq_ok_iff.mpr (.inl ⟨rfl, rfl, rfl⟩)) rfl
  | range reads start stop said =>
      refine ⟨_, rfl, run_id reads spelled fun spelled => run_text spelled fun spelled => ?_⟩
      refine run_text spelled fun spelled => ?_
      obtain ⟨token, _, here, ⟨⟩, rfl⟩ := List.forall₂_cons_right_iff.mp spelled
      obtain ⟨rfl, rfl⟩ | ⟨rfl, rfl⟩ := said
      · exact run_last (isLocal_eq_ok_iff.mpr (.inr ⟨token, rfl, .inl ⟨here, rfl⟩⟩)) rfl
      · exact run_last (isLocal_eq_ok_iff.mpr (.inr ⟨token, rfl, .inr ⟨here, rfl⟩⟩)) rfl
  | and reads => exact ⟨_, rfl, run_id reads spelled fun ends => run_end ends rfl⟩
  | or reads => exact ⟨_, rfl, run_id reads spelled fun ends => run_end ends rfl⟩
  | select inhabited reads =>
      exact ⟨_, rfl, run_last (ids_eq_ok_iff.mpr ⟨rfl, words, inhabited, spelled, reads⟩) rfl⟩
  | unselect inhabited reads =>
      exact ⟨_, rfl, run_last (ids_eq_ok_iff.mpr ⟨rfl, words, inhabited, spelled, reads⟩) rfl⟩
  | group => exact ⟨_, rfl, run_end spelled rfl⟩
  | ungroup reads => exact ⟨_, rfl, run_id reads spelled fun ends => run_end ends rfl⟩
  | list named =>
      obtain rfl | rfl := named
      all_goals exact ⟨_, rfl, run_end spelled rfl⟩
  | compile asked =>
      exact ⟨_, rfl, run_last (target_eq_ok_iff.mpr ⟨rfl, words, spelled, asked⟩) rfl⟩
  | sample partitionKey rowKey =>
      refine ⟨_, rfl, run_text spelled fun spelled => ?_⟩
      exact run_text spelled fun ends => run_end ends rfl
  | clear => exact ⟨_, rfl, run_end spelled rfl⟩
  | help named =>
      obtain rfl | rfl := named
      all_goals exact ⟨_, rfl, run_end spelled rfl⟩
  | quit named =>
      obtain rfl | rfl := named
      all_goals exact ⟨_, rfl, run_end spelled rfl⟩

/-! ## Lines -/

theorem ofTokens?_eq_some_iff {head : Token} :
    ofTokens? (head :: tokens) = .ok (some command) ↔
      ∃ words, List.Forall₂ Token.Spells tokens words ∧
        Follows head.text.toLower words command := by
  rw [ofTokens?]
  constructor
  · intro ran
    split at ran
    · cases ran
    · rename_i reader named
      cases outcome : reader tokens with
      | error problem =>
          rw [outcome] at ran
          cases ran
      | ok taken =>
          obtain ⟨found, left⟩ := taken
          rw [outcome] at ran
          cases left with
          | nil =>
              cases ran
              exact follows_of_run named outcome
          | cons extra others => cases ran
  · rintro ⟨words, spelled, follows⟩
    obtain ⟨reader, named, ran⟩ := exists_reader follows spelled
    rw [named]
    dsimp only
    rw [ran]
    rfl

theorem ofTokens?_ne_none {head : Token} : ofTokens? (head :: tokens) ≠ .ok none := by
  intro ran
  rw [ofTokens?] at ran
  split at ran
  · cases ran
  · rename_i reader named
    cases outcome : reader tokens with
    | error problem =>
        rw [outcome] at ran
        cases ran
    | ok taken =>
        obtain ⟨found, left⟩ := taken
        rw [outcome] at ran
        cases left <;> cases ran

theorem ofLine_eq_nil_iff (line : String) :
    Token.ofLine line = [] ↔ ∀ character ∈ line.toList, Text.isBlank character = true := by
  rw [eq_comm, Token.ofLine, ← Token.tiling_iff, Token.tiling_nil_iff]

theorem ofLine?_eq_none_iff (line : String) :
    ofLine? line = .ok none ↔ ∀ character ∈ line.toList, Text.isBlank character = true := by
  rw [← ofLine_eq_nil_iff, ofLine?]
  cases Token.ofLine line with
  | nil => simp [ofTokens?]
  | cons head tokens => simp [ofTokens?_ne_none]

theorem ofLine?_eq_some_iff (line : String) (command : Command) :
    ofLine? line = .ok (some command) ↔
      ∃ head tokens words, Token.ofLine line = head :: tokens ∧
        List.Forall₂ Token.Spells tokens words ∧ Follows head.text.toLower words command := by
  rw [ofLine?]
  cases Token.ofLine line with
  | nil => simp [ofTokens?]
  | cons head tokens => simp [ofTokens?_eq_some_iff]

theorem exists_error_iff (line : String) : (∃ error, ofLine? line = .error error) ↔
    ofLine? line ≠ .ok none ∧ ∀ command, ofLine? line ≠ .ok (some command) := by
  rcases ofLine? line with error | _ | command
  · simp
  · simp
  · simp

def loneNames : List String :=
  ["add", "group", "list", "ls", "compile", "clear", "help", "?", "quit", "exit"]

theorem exists_follows_nil_iff : (∃ command, Follows name [] command) ↔ name ∈ loneNames := by
  constructor
  · rintro ⟨command, follows⟩
    cases follows with
    | add | group | compile | clear => decide
    | list named | help named | quit named => obtain rfl | rfl := named <;> decide
    | select inhabited | unselect inhabited => exact absurd rfl inhabited
  · intro lone
    simp only [loneNames, List.mem_cons, List.not_mem_nil, or_false] at lone
    rcases lone with rfl | rfl | rfl | rfl | rfl | rfl | rfl | rfl | rfl | rfl
    · exact ⟨_, .add .last⟩
    · exact ⟨_, .group⟩
    · exact ⟨_, .list (.inl rfl)⟩
    · exact ⟨_, .list (.inr rfl)⟩
    · exact ⟨_, .compile (.columns [] (by simp))⟩
    · exact ⟨_, .clear⟩
    · exact ⟨_, .help (.inl rfl)⟩
    · exact ⟨_, .help (.inr rfl)⟩
    · exact ⟨_, .quit (.inl rfl)⟩
    · exact ⟨_, .quit (.inr rfl)⟩

/-- Nothing stands behind a quote that is left open. -/
theorem getLast?_of_unclosed {line : String} {token : Token} (member : token ∈ Token.ofLine line)
    (unclosed : token.form = .unclosed) : (Token.ofLine line).getLast? = some token :=
  ((Token.tiling_iff.mpr rfl).last token member unclosed).2

theorem ofLine?_eq_some_iff_of_unclosed {line : String}
    (left : ∃ token ∈ Token.ofLine line, token.form = .unclosed) (command : Command) :
    ofLine? line = .ok (some command) ↔
      ∃ head, Token.ofLine line = [head] ∧ Follows head.text.toLower [] command := by
  obtain ⟨token, member, unclosed⟩ := left
  have last := getLast?_of_unclosed member unclosed
  rw [ofLine?_eq_some_iff]
  constructor
  · rintro ⟨head, tokens, words, whole, spelled, follows⟩
    rw [whole] at last
    cases spelled with
    | nil => exact ⟨head, whole, follows⟩
    | cons here further =>
        -- The last argument would be the token that is left open.
        have behind := Token.forall₂_spells_iff.mp (.cons here further)
        rw [List.getLast?_cons_cons] at last
        exact absurd unclosed (behind.1 token (List.mem_of_getLast? last))
  · rintro ⟨head, whole, follows⟩
    exact ⟨head, [], [], whole, .nil, follows⟩

/-- Where a quote is left open, the line is an error, unless it has no other word and that is the
name of a command that can stand alone. -/
theorem exists_error_iff_of_unclosed (line : String)
    (left : ∃ token ∈ Token.ofLine line, token.form = .unclosed) :
    (∃ error, ofLine? line = .error error) ↔
      ∀ head, Token.ofLine line = [head] → head.text.toLower ∉ loneNames := by
  have inhabited : ofLine? line ≠ .ok none := by
    obtain ⟨token, member, _⟩ := left
    rw [ne_eq, ofLine?_eq_none_iff, ← ofLine_eq_nil_iff]
    exact List.ne_nil_of_mem member
  simp only [exists_error_iff, ne_eq, inhabited, not_false_eq_true, true_and,
    ofLine?_eq_some_iff_of_unclosed left]
  constructor
  · intro refused head whole lone
    obtain ⟨command, follows⟩ := exists_follows_nil_iff.mpr lone
    exact refused command ⟨head, whole, follows⟩
  · rintro refused command ⟨head, whole, follows⟩
    exact refused head whole (exists_follows_nil_iff.mp ⟨command, follows⟩)

theorem exists_error_of_unclosed_argument :
    (∃ token ∈ Token.ofLine "clear \"", token.form = .unclosed) ∧
      ∃ error, ofLine? "clear \"" = .error error := by
  have left : ∃ token ∈ Token.ofLine "clear \"", token.form = .unclosed := by decide +kernel
  refine ⟨left, (exists_error_iff_of_unclosed _ left).mpr fun head whole => ?_⟩
  have two : (Token.ofLine "clear \"").length = 2 := by decide +kernel
  rw [whole, List.length_singleton] at two
  exact absurd two (by decide)

/-- A line that is nothing but an open quote and a name is carried out. -/
theorem exists_command_of_unclosed :
    (∃ token ∈ Token.ofLine "\"clear", token.form = .unclosed) ∧
      ofLine? "\"clear" = .ok (some clear) := by
  have left : ∃ token ∈ Token.ofLine "\"clear", token.form = .unclosed := by decide +kernel
  have alone : (Token.ofLine "\"clear").map Token.text = ["clear"] := by decide +kernel
  have name : "clear".toLower = "clear" := by decide +kernel
  refine ⟨left, (ofLine?_eq_some_iff_of_unclosed left clear).mpr ?_⟩
  obtain ⟨head, whole, text⟩ := List.map_eq_singleton_iff.mp alone
  refine ⟨head, whole, ?_⟩
  rw [text, name]
  exact .clear

end WhereEditor.Command
