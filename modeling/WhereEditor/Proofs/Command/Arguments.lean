import WhereEditor.Command.Sentence
import WhereEditor.Proofs.Support

/-!
What the readers of arguments take from the front of a line, and what they make of it. Main
statements: each succeeds exactly on arguments of its kind, and on none that is left open.
-/

namespace WhereEditor

/-- A token that ends where it should, and the word it gives. -/
def Token.Spells (token : Token) (word : String) : Prop :=
  token.form ≠ .unclosed ∧ token.text = word

theorem Token.forall₂_spells_iff {tokens : List Token} {words : List String} :
    List.Forall₂ Token.Spells tokens words ↔
      (∀ token ∈ tokens, token.form ≠ .unclosed) ∧ tokens.map Token.text = words := by
  induction tokens generalizing words with
  | nil => simp [eq_comm]
  | cons token later ih =>
      rw [List.forall₂_cons_left_iff, List.forall_mem_cons, List.map_cons]
      constructor
      · rintro ⟨word, further, ⟨closed, rfl⟩, spelled, rfl⟩
        obtain ⟨others, rfl⟩ := ih.mp spelled
        exact ⟨⟨closed, others⟩, rfl⟩
      · rintro ⟨⟨closed, others⟩, rfl⟩
        exact ⟨_, _, ⟨closed, rfl⟩, ih.mpr ⟨others, rfl⟩, rfl⟩

namespace Arguments

variable {α β : Type} {tokens left : List Token}

/-! ## Readers one after the other -/

theorem pure_eq_ok_iff {value result : α} :
    (pure value : Arguments α) tokens = .ok (result, left) ↔ value = result ∧ tokens = left := by
  constructor
  · intro ran
    cases ran
    exact ⟨rfl, rfl⟩
  · rintro ⟨rfl, rfl⟩
    rfl

theorem throw_ne_ok {error : SyntaxError} {result : α} :
    (throw error : Arguments α) tokens ≠ .ok (result, left) := by
  intro ran
  cases ran

theorem bind_eq_ok_iff {first : Arguments α} {further : α → Arguments β} {result : β} :
    (first >>= further) tokens = .ok (result, left) ↔
      ∃ value rest, first tokens = .ok (value, rest) ∧ further value rest = .ok (result, left) := by
  have opened : (first >>= further) tokens =
      (first tokens >>= fun taken => further taken.1 taken.2) := rfl
  rw [opened]
  cases first tokens with
  | error problem =>
      constructor
      · intro ran
        cases ran
      · rintro ⟨value, rest, ran, _⟩
        cases ran
  | ok taken =>
      constructor
      · intro ran
        exact ⟨taken.1, taken.2, rfl, ran⟩
      · rintro ⟨value, rest, same, ran⟩
        cases same
        exact ran

/-! ## One argument -/

theorem closed_eq_ok_iff {token found : Token} :
    closed token = .ok found ↔ token.form ≠ .unclosed ∧ found = token := by
  rw [closed]
  split
  · rename_i unclosed
    simp [unclosed]
  · rename_i closed
    simp [closed, eq_comm]

theorem next_eq_ok_iff {what : Missing} {token : Token} :
    next what tokens = .ok (token, left) ↔ tokens = token :: left ∧ token.Spells token.text := by
  cases tokens with
  | nil => simp [next]
  | cons first rest =>
      simp only [next, map_eq_ok_iff, closed_eq_ok_iff, Prod.mk.injEq, List.cons.injEq]
      constructor
      · rintro ⟨found, ⟨closed, rfl⟩, rfl, rfl⟩
        exact ⟨⟨rfl, rfl⟩, closed, rfl⟩
      · rintro ⟨⟨rfl, rfl⟩, closed, _⟩
        exact ⟨first, ⟨closed, rfl⟩, rfl, rfl⟩

theorem next?_eq_ok_iff {found : Option Token} :
    next? tokens = .ok (found, left) ↔
      (tokens = [] ∧ left = [] ∧ found = none) ∨
        ∃ token, tokens = token :: left ∧ token.Spells token.text ∧ found = some token := by
  cases tokens with
  | nil => simp [next?, and_comm, eq_comm]
  | cons first rest =>
      simp only [next?, map_eq_ok_iff, closed_eq_ok_iff, Prod.mk.injEq, List.cons.injEq]
      constructor
      · rintro ⟨found, ⟨closed, rfl⟩, rfl, rfl⟩
        exact .inr ⟨found, ⟨rfl, rfl⟩, ⟨closed, rfl⟩, rfl⟩
      · rintro (⟨impossible, _⟩ | ⟨token, ⟨rfl, rfl⟩, ⟨closed, _⟩, rfl⟩)
        · cases impossible
        · exact ⟨first, ⟨closed, rfl⟩, rfl, rfl⟩

theorem text_eq_ok_iff {what : Missing} {word : String} :
    text what tokens = .ok (word, left) ↔ ∃ token, tokens = token :: left ∧ token.Spells word := by
  simp only [text, bind_eq_ok_iff, next_eq_ok_iff, pure_eq_ok_iff]
  constructor
  · rintro ⟨token, rest, ⟨rfl, closed, _⟩, same, rfl⟩
    exact ⟨token, rfl, closed, same⟩
  · rintro ⟨token, rfl, closed, same⟩
    exact ⟨token, left, ⟨rfl, closed, rfl⟩, same, rfl⟩

theorem idOf_eq_ok_iff {token : Token} {id : NodeId} :
    idOf token = .ok id ↔ ∃ word, token.Spells word ∧ NodeId.ofText? word = some id := by
  by_cases unclosed : token.form = .unclosed
  · simp [idOf, closed, Token.Spells, unclosed, bind, Except.bind]
  · cases reads : NodeId.ofText? token.text with
    | none => simp [idOf, closed, Token.Spells, unclosed, reads, bind, Except.bind]
    | some found =>
        simp [idOf, closed, Token.Spells, unclosed, reads, bind, Except.bind, pure, Except.pure]

theorem id_eq_ok_iff {target : NodeId} :
    id tokens = .ok (target, left) ↔
      ∃ token word, tokens = token :: left ∧ token.Spells word ∧
        NodeId.ofText? word = some target := by
  cases tokens with
  | nil => simp [id]
  | cons first rest =>
      simp only [id, map_eq_ok_iff, idOf_eq_ok_iff, Prod.mk.injEq, List.cons.injEq]
      constructor
      · rintro ⟨found, ⟨word, spelled, reads⟩, rfl, rfl⟩
        exact ⟨first, word, ⟨rfl, rfl⟩, spelled, reads⟩
      · rintro ⟨token, word, ⟨rfl, rfl⟩, spelled, reads⟩
        exact ⟨target, ⟨word, spelled, reads⟩, rfl, rfl⟩

theorem operator_eq_ok_iff {chosen : Operator} :
    operator tokens = .ok (chosen, left) ↔
      ∃ token word, tokens = token :: left ∧ token.Spells word ∧
        Operator.ofText? word = some chosen := by
  simp only [operator, bind_eq_ok_iff, next_eq_ok_iff]
  constructor
  · rintro ⟨token, rest, ⟨rfl, spelled⟩, ran⟩
    cases reads : Operator.ofText? token.text with
    | none =>
        rw [reads] at ran
        exact absurd ran throw_ne_ok
    | some found =>
        rw [reads] at ran
        obtain ⟨rfl, rfl⟩ := pure_eq_ok_iff.mp ran
        exact ⟨token, token.text, rfl, spelled, reads⟩
  · rintro ⟨token, _, rfl, ⟨closed, rfl⟩, reads⟩
    refine ⟨token, left, ⟨rfl, closed, rfl⟩, ?_⟩
    rw [reads]
    rfl

/-! ## All that is left -/

theorem mapM_closed_eq_ok_iff {found : List Token} :
    tokens.mapM closed = .ok found ↔
      found = tokens ∧ ∀ token ∈ tokens, token.form ≠ .unclosed := by
  rw [mapM_eq_ok_iff]
  simp only [closed_eq_ok_iff]
  induction tokens generalizing found with
  | nil => simp
  | cons token later ih =>
      simp only [List.forall₂_cons_left_iff, ih, List.forall_mem_cons]
      constructor
      · rintro ⟨value, further, ⟨closed, rfl⟩, ⟨rfl, others⟩, rfl⟩
        exact ⟨rfl, closed, others⟩
      · rintro ⟨rfl, closed, others⟩
        exact ⟨token, later, ⟨closed, rfl⟩, ⟨rfl, others⟩, rfl⟩

theorem rest_eq_ok_iff {found : List Token} :
    rest tokens = .ok (found, left) ↔
      left = [] ∧ found = tokens ∧ ∀ token ∈ tokens, token.form ≠ .unclosed := by
  simp only [rest, map_eq_ok_iff, mapM_closed_eq_ok_iff, Prod.mk.injEq]
  constructor
  · rintro ⟨_, ⟨rfl, closed⟩, rfl, rfl⟩
    exact ⟨rfl, rfl, closed⟩
  · rintro ⟨rfl, rfl, closed⟩
    exact ⟨_, ⟨rfl, closed⟩, rfl, rfl⟩

theorem mapM_idOf_eq_ok_iff {targets : List NodeId} :
    tokens.mapM idOf = .ok targets ↔ ∃ words, List.Forall₂ Token.Spells tokens words ∧
      List.Forall₂ (fun word id => NodeId.ofText? word = some id) words targets := by
  rw [mapM_eq_ok_iff]
  simp only [idOf_eq_ok_iff]
  induction tokens generalizing targets with
  | nil => simp
  | cons token later ih =>
      simp only [List.forall₂_cons_left_iff, ih]
      constructor
      · rintro ⟨id, ids, ⟨word, spelled, reads⟩, ⟨words, further⟩, rfl⟩
        exact ⟨word :: words, ⟨word, words, spelled, further.1, rfl⟩, .cons reads further.2⟩
      · rintro ⟨_, ⟨word, words, spelled, further, rfl⟩, reads⟩
        obtain ⟨id, ids, here, others, rfl⟩ := List.forall₂_cons_left_iff.mp reads
        exact ⟨id, ids, ⟨word, spelled, here⟩, ⟨words, further, others⟩, rfl⟩

theorem ids_eq_ok_iff {targets : List NodeId} :
    ids tokens = .ok (targets, left) ↔ left = [] ∧ ∃ words, words ≠ [] ∧
      List.Forall₂ Token.Spells tokens words ∧
      List.Forall₂ (fun word id => NodeId.ofText? word = some id) words targets := by
  cases tokens with
  | nil => simp [ids]
  | cons first later =>
      simp only [ids, map_eq_ok_iff, mapM_idOf_eq_ok_iff, Prod.mk.injEq]
      constructor
      · rintro ⟨found, ⟨words, spelled, reads⟩, rfl, rfl⟩
        refine ⟨rfl, words, ?_, spelled, reads⟩
        rintro rfl
        cases spelled
      · rintro ⟨rfl, words, _, spelled, reads⟩
        exact ⟨targets, ⟨words, spelled, reads⟩, rfl, rfl⟩

theorem preset_eq_ok_iff {window : Preset} :
    preset tokens = .ok (window, left) ↔ left = [] ∧ ∃ words, words ≠ [] ∧
      List.Forall₂ Token.Spells tokens words ∧
      Preset.ofText? (" ".intercalate words) = some window := by
  simp only [preset, bind_eq_ok_iff, rest_eq_ok_iff, Token.forall₂_spells_iff]
  constructor
  · rintro ⟨found, _, ⟨rfl, rfl, closed⟩, ran⟩
    cases found with
    | nil => exact absurd ran throw_ne_ok
    | cons first others =>
        cases reads : Preset.ofText? (" ".intercalate ((first :: others).map Token.text)) with
        | none =>
            simp only [reads] at ran
            exact absurd ran throw_ne_ok
        | some window =>
            simp only [reads] at ran
            obtain ⟨rfl, rfl⟩ := pure_eq_ok_iff.mp ran
            exact ⟨rfl, _, List.cons_ne_nil _ _, ⟨closed, rfl⟩, reads⟩
  · rintro ⟨rfl, words, inhabited, ⟨closed, rfl⟩, reads⟩
    refine ⟨tokens, [], ⟨rfl, rfl, closed⟩, ?_⟩
    cases tokens with
    | nil => exact absurd rfl inhabited
    | cons first others =>
        simp only [reads]
        rfl

/-- A first word that names a dialect is taken for one, and all others are columns. -/
inductive Wanted : List String → Option Dialect × List String → Prop
  | columns (words : List String) (unnamed : ∀ first ∈ words.head?, Dialect.ofText? first = none) :
      Wanted words (none, words)
  | dialect {first : String} {dialect : Dialect} (columns : List String)
      (reads : Dialect.ofText? first = some dialect) :
      Wanted (first :: columns) (some dialect, columns)

theorem target_eq_ok_iff {wanted : Option Dialect × List String} :
    target tokens = .ok (wanted, left) ↔ left = [] ∧ ∃ words,
      List.Forall₂ Token.Spells tokens words ∧ Wanted words wanted := by
  simp only [target, bind_eq_ok_iff, rest_eq_ok_iff, Token.forall₂_spells_iff]
  constructor
  · rintro ⟨found, _, ⟨rfl, rfl, closed⟩, ran⟩
    cases found with
    | nil =>
        obtain ⟨rfl, rfl⟩ := pure_eq_ok_iff.mp ran
        exact ⟨rfl, [], ⟨closed, rfl⟩, .columns [] (by simp)⟩
    | cons first others =>
        rw [List.map_cons] at ran
        cases reads : Dialect.ofText? first.text with
        | none =>
            simp only [reads] at ran
            obtain ⟨rfl, rfl⟩ := pure_eq_ok_iff.mp ran
            exact ⟨rfl, _, ⟨closed, rfl⟩, .columns _ (by simpa using reads)⟩
        | some dialect =>
            simp only [reads] at ran
            obtain ⟨rfl, rfl⟩ := pure_eq_ok_iff.mp ran
            exact ⟨rfl, _, ⟨closed, rfl⟩, .dialect _ reads⟩
  · rintro ⟨rfl, words, ⟨closed, spelled⟩, wanted⟩
    refine ⟨tokens, [], ⟨rfl, rfl, closed⟩, ?_⟩
    rw [spelled]
    cases wanted with
    | columns words unnamed =>
        cases words with
        | nil => rfl
        | cons first others =>
            simp only [unnamed first rfl]
            rfl
    | dialect columns reads =>
        simp only [reads]
        rfl

/-! ## Arguments that may be left out -/

theorem isLocal_eq_ok_iff {found : Bool} :
    isLocal tokens = .ok (found, left) ↔
      (tokens = [] ∧ left = [] ∧ found = true) ∨
        ∃ token, tokens = token :: left ∧
          (token.Spells "local" ∧ found = true ∨ token.Spells "utc" ∧ found = false) := by
  simp only [isLocal, bind_eq_ok_iff, next?_eq_ok_iff]
  constructor
  · rintro ⟨_, rest, ⟨rfl, rfl, rfl⟩ | ⟨token, rfl, spelled, rfl⟩, ran⟩
    · obtain ⟨rfl, rfl⟩ := pure_eq_ok_iff.mp ran
      exact .inl ⟨rfl, rfl, rfl⟩
    · dsimp only at ran
      split at ran
      · rename_i isLocal
        obtain ⟨rfl, rfl⟩ := pure_eq_ok_iff.mp ran
        exact .inr ⟨token, rfl, .inl ⟨⟨spelled.1, isLocal⟩, rfl⟩⟩
      · split at ran
        · rename_i isUtc
          obtain ⟨rfl, rfl⟩ := pure_eq_ok_iff.mp ran
          exact .inr ⟨token, rfl, .inr ⟨⟨spelled.1, isUtc⟩, rfl⟩⟩
        · exact absurd ran throw_ne_ok
  · rintro (⟨rfl, rfl, rfl⟩ | ⟨token, rfl, ⟨⟨closed, spelled⟩, rfl⟩ | ⟨⟨closed, spelled⟩, rfl⟩⟩)
    · exact ⟨none, [], .inl ⟨rfl, rfl, rfl⟩, rfl⟩
    · refine ⟨some token, left, .inr ⟨token, rfl, ⟨closed, rfl⟩, rfl⟩, ?_⟩
      simp only [spelled]
      rfl
    · refine ⟨some token, left, .inr ⟨token, rfl, ⟨closed, rfl⟩, rfl⟩, ?_⟩
      simp only [spelled]
      rfl

/-- A first word that is a number is taken for the position, and any other for the field. -/
inductive Placed : List String → Option Nat × Option String → Prop
  | last : Placed [] (none, none)
  | field {word : String} (reads : Text.index? word.toList = none) : Placed [word] (none, some word)
  | position {word : String} {position : Nat} (reads : Text.index? word.toList = some position) :
      Placed [word] (some position, none)
  | both {word : String} {position : Nat} (field : String)
      (reads : Text.index? word.toList = some position) :
      Placed [word, field] (some position, some field)

theorem placement_eq_ok_iff {place : Option Nat × Option String} :
    placement tokens = .ok (place, []) ↔ ∃ words,
      List.Forall₂ Token.Spells tokens words ∧ Placed words place := by
  simp only [placement, bind_eq_ok_iff, next?_eq_ok_iff]
  constructor
  · rintro ⟨_, rest, ⟨rfl, rfl, rfl⟩ | ⟨token, rfl, spelled, rfl⟩, ran⟩
    · obtain ⟨rfl, _⟩ := pure_eq_ok_iff.mp ran
      exact ⟨[], .nil, .last⟩
    · cases reads : Text.index? token.text.toList with
      | none =>
          simp only [reads] at ran
          obtain ⟨rfl, rfl⟩ := pure_eq_ok_iff.mp ran
          exact ⟨_, .cons spelled .nil, .field reads⟩
      | some position =>
          simp only [reads, bind_eq_ok_iff, next?_eq_ok_iff, pure_eq_ok_iff] at ran
          obtain ⟨_, _, ⟨rfl, rfl, rfl⟩ | ⟨field, rfl, written, rfl⟩, rfl, ends⟩ := ran
          · exact ⟨_, .cons spelled .nil, .position reads⟩
          · subst ends
            exact ⟨_, .cons spelled (.cons written .nil), .both _ reads⟩
  · rintro ⟨words, spelled, placed⟩
    cases placed with
    | last =>
        cases spelled
        exact ⟨none, [], .inl ⟨rfl, rfl, rfl⟩, rfl⟩
    | field reads =>
        obtain ⟨token, _, ⟨closed, rfl⟩, ⟨⟩, rfl⟩ := List.forall₂_cons_right_iff.mp spelled
        refine ⟨some token, [], .inr ⟨token, rfl, ⟨closed, rfl⟩, rfl⟩, ?_⟩
        simp only [reads]
        rfl
    | position reads =>
        obtain ⟨token, _, ⟨closed, rfl⟩, ⟨⟩, rfl⟩ := List.forall₂_cons_right_iff.mp spelled
        refine ⟨some token, [], .inr ⟨token, rfl, ⟨closed, rfl⟩, rfl⟩, ?_⟩
        simp only [reads]
        rfl
    | both field reads =>
        obtain ⟨token, _, ⟨closed, rfl⟩, further, rfl⟩ := List.forall₂_cons_right_iff.mp spelled
        obtain ⟨next, _, ⟨ended, rfl⟩, ⟨⟩, rfl⟩ := List.forall₂_cons_right_iff.mp further
        refine ⟨some token, [next], .inr ⟨token, rfl, ⟨closed, rfl⟩, rfl⟩, ?_⟩
        simp only [reads, bind_eq_ok_iff, next?_eq_ok_iff, pure_eq_ok_iff]
        exact ⟨some next, [], .inr ⟨next, rfl, ⟨ended, rfl⟩, rfl⟩, rfl, rfl⟩

end Arguments

end WhereEditor
