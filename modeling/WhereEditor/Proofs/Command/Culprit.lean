import WhereEditor.Proofs.Command.Grammar

/-!
Where a line goes wrong. An error without a span says that words are missing at the end; one with a
span names a token with which no line of the kind can go on, though one can with the tokens before
it. Main statement: this holds of the errors of every command; only the words of the name of a
preset are taken together, from the first of them on.
-/

namespace WhereEditor

theorem Token.exists_spells (words : List String) :
    ∃ tokens, List.Forall₂ Token.Spells tokens words := by
  induction words with
  | nil => exact ⟨[], .nil⟩
  | cons word later ih =>
      obtain ⟨tokens, spelled⟩ := ih
      exact ⟨⟨.word, word, ⟨0, 0⟩⟩ :: tokens, .cons ⟨by simp, rfl⟩ spelled⟩

namespace Arguments

variable {α β : Type}

/-! ## Reading to the end -/

def toEnd (reader : Arguments α) (tokens : List Token) : Except SyntaxError α := do
  let (value, left) ← reader tokens
  match left with
  | [] => return value
  | extra :: _ => throw (.unexpected extra.text extra.span)

theorem toEnd_eq_ok_iff {reader : Arguments α} {tokens : List Token} {value : α} :
    toEnd reader tokens = .ok value ↔ reader tokens = .ok (value, []) := by
  rw [toEnd]
  cases reader tokens with
  | error problem => simp [bind, Except.bind]
  | ok taken =>
      obtain ⟨found, left⟩ := taken
      cases left with
      | nil => simp [bind, Except.bind, pure, Except.pure]
      | cons extra others => simp [bind, Except.bind, throw, throwThe, MonadExceptOf.throw]

theorem bind_of_ok {first : Arguments β} {tokens rest : List Token} {value : β}
    (taken : first tokens = .ok (value, rest)) (further : β → Arguments α) :
    (first >>= further) tokens = further value rest := by
  have opened : (first >>= further) tokens =
      (first tokens >>= fun taken => further taken.1 taken.2) := rfl
  rw [opened, taken]
  rfl

theorem toEnd_bind_of_ok {first : Arguments β} {tokens rest : List Token} {value : β}
    (taken : first tokens = .ok (value, rest)) (further : β → Arguments α) :
    toEnd (first >>= further) tokens = toEnd (further value) rest := by
  rw [toEnd, bind_of_ok taken, toEnd]

theorem toEnd_bind_of_error {first : Arguments β} {tokens : List Token} {error : SyntaxError}
    (refused : first tokens = .error error) (further : β → Arguments α) :
    toEnd (first >>= further) tokens = .error error := by
  have opened : (first >>= further) tokens =
      (first tokens >>= fun taken => further taken.1 taken.2) := rfl
  rw [toEnd, opened, refused]
  rfl

def Takes (reader : Arguments α) (words : List String) : Prop :=
  ∃ tokens value, List.Forall₂ Token.Spells tokens words ∧ toEnd reader tokens = .ok value

def GoesOn (reader : Arguments α) (words : List String) : Prop :=
  ∃ more, (∀ word ∈ more, '"' ∉ word.toList) ∧ Takes reader (words ++ more)

/-! ## Errors that name what is wrong -/

/-- All is well before the token, and with it no words are read to the end, unless it stands where
all words from there on are `joined` to one name. -/
structure Culprit (joined : Option Nat) (reader : Arguments α) (error : SyntaxError)
    (before : List Token) (token : Token) : Prop where
  span : error.span? = some token.span
  goesOn : GoesOn reader (before.map Token.text)
  stuck : joined = some before.length ∨
    ∀ more, ¬ Takes reader ((before ++ [token]).map Token.text ++ more)

inductive Explained (joined : Option Nat) (reader : Arguments α) (tokens : List Token)
    (error : SyntaxError) : Prop
  | missing (spanless : error.span? = none) (goesOn : GoesOn reader (tokens.map Token.text))
  | culprit (before : List Token) (token : Token) (after : List Token)
      (whole : tokens = before ++ token :: after)
      (culprit : Culprit joined reader error before token)

structure Pointed (joined : Option Nat) (reader : Arguments α) : Prop where
  goesOn : GoesOn reader []
  explained : ∀ tokens error, (∀ token ∈ tokens, token.form ≠ .unclosed) →
    toEnd reader tokens = .error error → Explained joined reader tokens error

/-! ## Word by word -/

/-- The reader looks at the first word, and refuses it or leaves the others to the next reader. -/
structure ByWord (reader : Arguments α) (next? : String → Option (Arguments α)) : Prop where
  taken : ∀ token rest next, token.form ≠ .unclosed → next? token.text = some next →
    toEnd reader (token :: rest) = toEnd next rest
  refused : ∀ token rest, token.form ≠ .unclosed → next? token.text = none →
    ∃ error, toEnd reader (token :: rest) = .error error ∧ error.span? = some token.span

namespace ByWord

variable {reader next : Arguments α} {next? : String → Option (Arguments α)} {word : String}
  {words : List String}

theorem takes_cons_iff (byWord : ByWord reader next?) :
    Takes reader (word :: words) ↔ ∃ next, next? word = some next ∧ Takes next words := by
  constructor
  · rintro ⟨_, value, spelled, ran⟩
    obtain ⟨token, rest, ⟨closed, rfl⟩, behind, rfl⟩ := List.forall₂_cons_right_iff.mp spelled
    cases goes : next? token.text with
    | none =>
        obtain ⟨error, refused, _⟩ := byWord.refused token rest closed goes
        rw [refused] at ran
        cases ran
    | some next =>
        rw [byWord.taken token rest next closed goes] at ran
        exact ⟨next, rfl, rest, value, behind, ran⟩
  · rintro ⟨next, goes, rest, value, behind, ran⟩
    have spells : Token.Spells ⟨.word, word, ⟨0, 0⟩⟩ word := ⟨by simp, rfl⟩
    refine ⟨_ :: rest, value, .cons spells behind, ?_⟩
    rw [byWord.taken _ rest next spells.1 goes]
    exact ran

theorem goesOn_cons (byWord : ByWord reader next?) (goes : next? word = some next)
    (later : GoesOn next words) : GoesOn reader (word :: words) := by
  obtain ⟨more, typed, takes⟩ := later
  exact ⟨more, typed, byWord.takes_cons_iff.mpr ⟨next, goes, takes⟩⟩

/-- A reader that goes word by word names what is wrong if the readers that come next do. -/
theorem pointed (byWord : ByWord reader next?) (joined : Option Nat)
    (empty : (∃ value, toEnd reader [] = .ok value) ∨
      (∃ what, toEnd reader [] = .error (.missing what)) ∧
        ∃ word next, '"' ∉ word.toList ∧ next? word = some next)
    (later : ∀ word next, next? word = some next → Pointed joined next) :
    Pointed (joined.map (· + 1)) reader := by
  have goesOn : GoesOn reader [] := by
    rcases empty with ⟨value, ran⟩ | ⟨_, word, next, noQuote, goes⟩
    · exact ⟨[], by simp, [], value, .nil, ran⟩
    · obtain ⟨more, typed, takes⟩ := (later word next goes).goesOn
      exact ⟨word :: more, List.forall_mem_cons.mpr ⟨noQuote, typed⟩,
        byWord.takes_cons_iff.mpr ⟨next, goes, takes⟩⟩
  refine ⟨goesOn, ?_⟩
  intro tokens error closed ran
  cases tokens with
  | nil =>
      rcases empty with ⟨value, well⟩ | ⟨⟨what, ends⟩, _⟩
      · rw [well] at ran
        cases ran
      · rw [ends] at ran
        cases ran
        exact .missing rfl goesOn
  | cons token rest =>
      obtain ⟨here, others⟩ := List.forall_mem_cons.mp closed
      cases goes : next? token.text with
      | none =>
          obtain ⟨problem, refused, span⟩ := byWord.refused token rest here goes
          rw [refused] at ran
          cases ran
          refine .culprit [] token rest rfl ⟨span, goesOn, .inr fun more takes => ?_⟩
          obtain ⟨next, some_, _⟩ := byWord.takes_cons_iff.mp takes
          rw [goes] at some_
          cases some_
      | some next =>
          rw [byWord.taken token rest next here goes] at ran
          cases (later token.text next goes).explained rest error others ran with
          | missing spanless further => exact .missing spanless (byWord.goesOn_cons goes further)
          | culprit before culprit after whole found =>
              subst whole
              refine .culprit (token :: before) culprit after rfl
                ⟨found.span, byWord.goesOn_cons goes found.goesOn, ?_⟩
              rcases found.stuck with together | stuck
              · exact .inl (by rw [together]; rfl)
              · refine .inr fun more takes => ?_
                obtain ⟨other, same, takes⟩ := byWord.takes_cons_iff.mp takes
                cases goes.symm.trans same
                exact stuck more takes

end ByWord

/-! ## One argument -/

theorem pointed_pure (value : α) : Pointed none (pure value : Arguments α) := by
  have byWord : ByWord (pure value : Arguments α) fun _ => none := by
    constructor
    · intro token rest next _ goes
      cases goes
    · intro token rest _ _
      exact ⟨.unexpected token.text token.span, rfl, rfl⟩
  refine byWord.pointed none (.inl ⟨value, rfl⟩) ?_
  intro word next goes
  cases goes

structure ReadsWord (reader : Arguments β) (read : String → Option β) : Prop where
  taken : ∀ token rest value, token.form ≠ .unclosed → read token.text = some value →
    reader (token :: rest) = .ok (value, rest)
  refused : ∀ token rest, token.form ≠ .unclosed → read token.text = none →
    ∃ error, reader (token :: rest) = .error error ∧ error.span? = some token.span

theorem ReadsWord.byWord {reader : Arguments β} {read : String → Option β}
    (one : ReadsWord reader read) (further : β → Arguments α) :
    ByWord (reader >>= further) fun word => (read word).map further := by
  constructor
  · intro token rest next closed goes
    obtain ⟨value, reads, rfl⟩ := Option.map_eq_some_iff.mp goes
    exact toEnd_bind_of_ok (one.taken token rest value closed reads) further
  · intro token rest closed stops
    obtain ⟨error, refused, span⟩ := one.refused token rest closed (Option.map_eq_none_iff.mp stops)
    exact ⟨error, toEnd_bind_of_error refused further, span⟩

theorem ReadsWord.pointed {reader : Arguments β} {read : String → Option β} {joined : Option Nat}
    {further : β → Arguments α} (one : ReadsWord reader read) {what : Missing}
    (needed : reader [] = .error (.missing what)) {word : String} {value : β}
    (noQuote : '"' ∉ word.toList) (reads : read word = some value)
    (later : ∀ value, Pointed joined (further value)) :
    Pointed (joined.map (· + 1)) (reader >>= further) := by
  refine (one.byWord further).pointed joined ?_ ?_
  · refine .inr ⟨⟨what, toEnd_bind_of_error needed further⟩, word, further value, noQuote, ?_⟩
    rw [reads]
    rfl
  · intro word next goes
    obtain ⟨value, _, rfl⟩ := Option.map_eq_some_iff.mp goes
    exact later value

theorem closed_of_ne {token : Token} (closed_ : token.form ≠ .unclosed) : closed token = .ok token :=
  closed_eq_ok_iff.mpr ⟨closed_, rfl⟩

theorem idOf_eq_error {token : Token} (ended : token.form ≠ .unclosed)
    (unread : NodeId.ofText? token.text = none) :
    idOf token = .error (.invalidId token.text token.span) := by
  simp only [idOf, closed_of_ne ended, unread, bind, Except.bind]
  rfl

theorem readsWord_id : ReadsWord id NodeId.ofText? := by
  constructor
  · intro token rest value ended reads
    exact id_eq_ok_iff.mpr ⟨token, token.text, rfl, ⟨ended, rfl⟩, reads⟩
  · intro token rest ended unread
    refine ⟨.invalidId token.text token.span, ?_, rfl⟩
    rw [id, idOf_eq_error ended unread]
    rfl

theorem readsWord_text (what : Missing) : ReadsWord (text what) some := by
  constructor
  · intro token rest value ended reads
    cases reads
    exact text_eq_ok_iff.mpr ⟨token, rfl, ended, rfl⟩
  · intro token rest _ unread
    cases unread

theorem readsWord_operator : ReadsWord operator Operator.ofText? := by
  constructor
  · intro token rest value ended reads
    exact operator_eq_ok_iff.mpr ⟨token, token.text, rfl, ⟨ended, rfl⟩, reads⟩
  · intro token rest ended unread
    refine ⟨.unknownOperator token.text token.span, ?_, rfl⟩
    rw [operator, bind_of_ok (next_eq_ok_iff.mpr ⟨rfl, ended, rfl⟩)]
    simp only [unread]
    rfl

/-! ## Arguments that may be left out -/

theorem byWord_next? {further : Option Token → Arguments α} {along : String → Arguments α}
    (same : ∀ token, further (some token) = along token.text) :
    ByWord (next? >>= further) fun word => some (along word) := by
  constructor
  · intro token rest next ended goes
    cases goes
    rw [← same]
    exact toEnd_bind_of_ok (next?_eq_ok_iff.mpr (.inr ⟨token, rfl, ⟨ended, rfl⟩, rfl⟩)) further
  · intro token rest _ stops
    cases stops

theorem toEnd_next?_nil (further : Option Token → Arguments α) :
    toEnd (next? >>= further) [] = toEnd (further none) [] :=
  toEnd_bind_of_ok (next?_eq_ok_iff.mpr (.inl ⟨rfl, rfl, rfl⟩)) further

theorem pointed_next? {make : Option Token → α} (value : String → α)
    (same : ∀ token, make (some token) = value token.text) :
    Pointed none (next? >>= fun found => pure (make found) : Arguments α) := by
  have byWord : ByWord (next? >>= fun found => pure (make found) : Arguments α) fun word =>
      some (pure (value word)) := byWord_next? fun token => by rw [same]
  refine byWord.pointed none (.inl ⟨make none, toEnd_next?_nil _⟩) ?_
  intro word next goes
  cases goes
  exact pointed_pure (value word)

theorem pointed_placement (make : Option Nat × Option String → α) :
    Pointed none (placement >>= fun place => pure (make place) : Arguments α) := by
  have byWord : ByWord (placement >>= fun place => pure (make place) : Arguments α) fun word =>
      some ((Text.index? word.toList).elim (pure (make (none, some word))) fun position =>
        next? >>= fun found => pure (make (some position, found.map Token.text))) := by
    rw [placement, bind_assoc]
    refine byWord_next? fun token => ?_
    dsimp only
    cases reads : Text.index? token.text.toList with
    | none => simp only [pure_bind, Option.elim_none]
    | some position => simp only [bind_assoc, pure_bind, Option.elim_some]
  refine byWord.pointed none (.inl ⟨make (none, none), rfl⟩) ?_
  intro word next goes
  cases goes
  cases Text.index? word.toList with
  | none => exact pointed_pure _
  | some position =>
      exact pointed_next? (fun word => make (some position, some word)) fun _ => rfl

theorem pointed_isLocal (make : Bool → α) :
    Pointed none (isLocal >>= fun zone => pure (make zone) : Arguments α) := by
  have one : ReadsWord isLocal fun word =>
      if word = "local" then some true else if word = "utc" then some false else none := by
    constructor
    · intro token rest value ended reads
      refine isLocal_eq_ok_iff.mpr (.inr ⟨token, rfl, ?_⟩)
      split at reads
      · rename_i said
        cases reads
        exact .inl ⟨⟨ended, said⟩, rfl⟩
      · split at reads
        · rename_i said
          cases reads
          exact .inr ⟨⟨ended, said⟩, rfl⟩
        · cases reads
    · intro token rest ended unread
      refine ⟨.unknownZone token.text token.span, ?_, rfl⟩
      have taken : next? (token :: rest) = .ok (some token, rest) :=
        next?_eq_ok_iff.mpr (.inr ⟨token, rfl, ⟨ended, rfl⟩, rfl⟩)
      by_cases isLocal_ : token.text = "local"
      · simp [isLocal_] at unread
      · by_cases isUtc : token.text = "utc"
        · simp [isUtc] at unread
        · rw [isLocal, bind_of_ok taken]
          simp only [isLocal_, isUtc, if_false]
          rfl
  refine (one.byWord _).pointed none (.inl ⟨make true, rfl⟩) ?_
  intro word next goes
  obtain ⟨value, _, rfl⟩ := Option.map_eq_some_iff.mp goes
  exact pointed_pure (make value)

/-! ## All that is left -/

theorem toEnd_bind_pure {reader : Arguments β} {tokens : List Token} {value : β}
    (taken : reader tokens = .ok (value, [])) (make : β → α) :
    toEnd (reader >>= fun value => pure (make value)) tokens = .ok (make value) :=
  toEnd_bind_of_ok taken _

theorem takes_bind_pure_iff {reader : Arguments β} {make : β → α} {words : List String} :
    Takes (reader >>= fun value => pure (make value) : Arguments α) words ↔
      ∃ tokens value, List.Forall₂ Token.Spells tokens words ∧ reader tokens = .ok (value, []) := by
  simp only [Takes, toEnd_eq_ok_iff, bind_eq_ok_iff, pure_eq_ok_iff]
  constructor
  · rintro ⟨tokens, _, spelled, value, rest, ran, _, rfl⟩
    exact ⟨tokens, value, spelled, ran⟩
  · rintro ⟨tokens, value, spelled, ran⟩
    exact ⟨tokens, make value, spelled, value, [], ran, rfl, rfl⟩

theorem exists_ids_iff {words : List String} :
    (∃ ids, List.Forall₂ (fun word id => NodeId.ofText? word = some id) words ids) ↔
      ∀ word ∈ words, ∃ id, NodeId.ofText? word = some id := by
  induction words with
  | nil => simp
  | cons word later ih =>
      rw [List.forall_mem_cons, ← ih]
      constructor
      · rintro ⟨_, reads⟩
        cases reads with
        | cons here further => exact ⟨⟨_, here⟩, _, further⟩
      · rintro ⟨⟨id, here⟩, ids, further⟩
        exact ⟨id :: ids, .cons here further⟩

theorem takes_ids_iff {make : List NodeId → α} {words : List String} :
    Takes (ids >>= fun ids => pure (make ids) : Arguments α) words ↔
      words ≠ [] ∧ ∀ word ∈ words, ∃ id, NodeId.ofText? word = some id := by
  rw [takes_bind_pure_iff, ← exists_ids_iff]
  simp only [ids_eq_ok_iff, true_and]
  constructor
  · rintro ⟨tokens, ids, spelled, others, inhabited, written, reads⟩
    obtain ⟨_, rfl⟩ := Token.forall₂_spells_iff.mp spelled
    obtain ⟨_, rfl⟩ := Token.forall₂_spells_iff.mp written
    exact ⟨inhabited, ids, reads⟩
  · rintro ⟨inhabited, ids, reads⟩
    obtain ⟨tokens, spelled⟩ := Token.exists_spells words
    exact ⟨tokens, ids, spelled, words, inhabited, spelled, reads⟩

theorem pointed_ids (make : List NodeId → α) :
    Pointed none (ids >>= fun ids => pure (make ids) : Arguments α) := by
  have number : NodeId.ofText? "0" = some 0 := by decide +kernel
  have goesOn {words : List String} (reads : ∀ word ∈ words, ∃ id, NodeId.ofText? word = some id) :
      GoesOn (ids >>= fun ids => pure (make ids) : Arguments α) words := by
    refine ⟨["0"], by simp, takes_ids_iff.mpr ⟨by simp, fun word member => ?_⟩⟩
    rcases List.mem_append.mp member with before | last
    · exact reads word before
    · rw [List.mem_singleton.mp last]
      exact ⟨0, number⟩
  refine ⟨goesOn (by simp), ?_⟩
  intro tokens error closed ran
  cases tokens with
  | nil =>
      cases ran
      exact .missing rfl (goesOn (by simp))
  | cons first later =>
      cases read : (first :: later).mapM idOf with
      | ok found =>
          have taken : ids (first :: later) = .ok (found, []) := by
            rw [ids, read]
            · rfl
            · simp
          rw [toEnd_bind_pure taken] at ran
          cases ran
      | error problem =>
          have refused : ids (first :: later) = .error problem := by
            rw [ids, read]
            · rfl
            · simp
          rw [toEnd_bind_of_error refused] at ran
          cases ran
          obtain ⟨before, culprit, after, values, whole, well, fails⟩ := mapM_eq_error read
          have ended : culprit.form ≠ .unclosed := closed culprit (by simp [whole])
          obtain ⟨words, spelled, reads⟩ := mapM_idOf_eq_ok_iff.mp well
          obtain ⟨_, rfl⟩ := Token.forall₂_spells_iff.mp spelled
          have unread : NodeId.ofText? culprit.text = none := by
            cases known : NodeId.ofText? culprit.text with
            | none => rfl
            | some id =>
                rw [idOf_eq_ok_iff.mpr ⟨_, ⟨ended, rfl⟩, known⟩] at fails
                cases fails
          rw [idOf_eq_error ended unread] at fails
          cases fails
          refine .culprit before culprit after whole ⟨rfl, goesOn ?_, .inr fun more takes => ?_⟩
          · exact exists_ids_iff.mp ⟨values, reads⟩
          · obtain ⟨id, known⟩ := (takes_ids_iff.mp takes).2 culprit.text (by simp)
            rw [unread] at known
            cases known

/-- The words of a name stand or fall together. -/
theorem pointed_preset (make : Preset → α) :
    Pointed (some 0) (preset >>= fun window => pure (make window) : Arguments α) := by
  have goesOn : GoesOn (preset >>= fun window => pure (make window) : Arguments α) [] := by
    obtain ⟨tokens, spelled⟩ := Token.exists_spells ["last", "hour"]
    have known : Preset.ofText? (" ".intercalate ["last", "hour"]) = some .lastHour := by
      decide +kernel
    have taken : preset tokens = .ok (.lastHour, []) :=
      preset_eq_ok_iff.mpr ⟨rfl, _, by simp, spelled, known⟩
    exact ⟨["last", "hour"], by simp, tokens, _, spelled, toEnd_bind_pure taken make⟩
  refine ⟨goesOn, ?_⟩
  intro tokens error closed ran
  have all : rest tokens = .ok (tokens, []) := rest_eq_ok_iff.mpr ⟨rfl, rfl, closed⟩
  cases tokens with
  | nil =>
      cases ran
      exact .missing rfl goesOn
  | cons first others =>
      rw [preset, bind_assoc, toEnd_bind_of_ok all] at ran
      cases known : Preset.ofText? (" ".intercalate ((first :: others).map Token.text)) with
      | some window =>
          simp only [known] at ran
          cases ran
      | none =>
          simp only [known] at ran
          cases ran
          exact .culprit [] first others rfl ⟨rfl, goesOn, .inl rfl⟩

theorem pointed_target (make : Option Dialect × List String → α) :
    Pointed none (target >>= fun wanted => pure (make wanted) : Arguments α) := by
  refine ⟨⟨[], by simp, [], make (none, []), .nil, rfl⟩, ?_⟩
  intro tokens error closed ran
  obtain ⟨wanted, asked⟩ : ∃ wanted, Wanted (tokens.map Token.text) wanted := by
    cases tokens.map Token.text with
    | nil => exact ⟨_, .columns [] (by simp)⟩
    | cons first others =>
        cases reads : Dialect.ofText? first with
        | none => exact ⟨_, .columns _ (by simpa using reads)⟩
        | some dialect => exact ⟨_, .dialect others reads⟩
  have spelled := Token.forall₂_spells_iff.mpr ⟨closed, rfl⟩
  rw [toEnd_bind_pure (target_eq_ok_iff.mpr ⟨rfl, _, spelled, asked⟩)] at ran
  cases ran

end Arguments

namespace Command

open Arguments

theorem pointed_of_ofName? {name : String} {reader : Arguments Command}
    (named : ofName? name = some reader) :
    Pointed (if name = "preset" then some 1 else none) reader := by
  have number : NodeId.ofText? "0" = some 0 := by decide +kernel
  have known : Operator.ofText? "=" = some .equal := by decide +kernel
  have byId {joined : Option Nat} {further : NodeId → Arguments Command}
      (later : ∀ id, Pointed joined (further id)) :
      Pointed (joined.map (· + 1)) (Arguments.id >>= further) :=
    readsWord_id.pointed rfl (by decide) number later
  have byText {what : Missing} {further : String → Arguments Command}
      (later : ∀ word, Pointed none (further word)) : Pointed none (text what >>= further) :=
    (readsWord_text what).pointed rfl (by decide : '"' ∉ "".toList) rfl later
  unfold ofName? at named
  split at named <;> cases named
  case h_1 => exact pointed_placement _
  case h_2 | h_3 => exact byId fun id => pointed_pure _
  case h_4 => exact byId fun id => byText fun name => pointed_pure _
  case h_5 => exact byId fun id => byText fun name => pointed_pure _
  case h_6 =>
      exact byId fun id => readsWord_operator.pointed rfl (by decide) known fun _ => pointed_pure _
  case h_7 =>
      exact byId fun id => pointed_next? (fun word => value id word) fun _ => rfl
  case h_8 => exact byId fun id => pointed_preset _
  case h_9 =>
      exact byId fun id => byText fun start => byText fun stop => pointed_isLocal _
  case h_10 | h_11 | h_15 => exact byId fun id => pointed_pure _
  case h_12 | h_13 => exact pointed_ids _
  case h_18 => exact pointed_target _
  case h_19 => exact byText fun partitionKey => byText fun rowKey => pointed_pure _
  case h_14 | h_16 | h_17 | h_20 | h_21 | h_22 | h_23 | h_24 => exact pointed_pure _

end Command

end WhereEditor
