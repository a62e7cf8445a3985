import Mathlib.Data.List.Nodup
import WhereEditor.Proofs.Command.Culprit
import WhereEditor.Proofs.Command.RoundTrip

/-!
Lines that go on. Words behind a line leave its tokens as they are, and so does cutting off the line
behind one of them. Main statement: where a line is no command, either more words make it one, or
the error gives the span of the token with which it goes wrong.
-/

namespace WhereEditor

open String (utf8Len utf8Len_nil)

namespace Token

variable {position : Nat} {text rest : List Char} {token : Token}

/-! ## Other text behind a token -/

theorem EndsBefore.of_append {first second : List Char} (ends : token.EndsBefore (first ++ second)) :
    token.EndsBefore first := by
  rw [EndsBefore] at ends ⊢
  cases form : token.form with
  | word =>
      rw [form] at ends
      intro character atFront
      obtain ⟨later, rfl⟩ := List.head?_eq_some_iff.mp atFront
      exact ends character rfl
  | quoted => trivial
  | unclosed =>
      rw [form] at ends
      exact (List.append_eq_nil_iff.mp ends).1

theorem EndsBefore.append_blank (ends : token.EndsBefore rest) (closed : token.form ≠ .unclosed)
    (more : List Char) : token.EndsBefore (rest ++ ' ' :: more) := by
  rw [EndsBefore] at ends ⊢
  cases form : token.form with
  | word =>
      rw [form] at ends
      intro character atFront
      cases rest with
      | nil =>
          cases atFront
          decide
      | cons next others =>
          cases atFront
          exact ends character rfl
  | quoted => trivial
  | unclosed => exact absurd form closed

/-- The token is the same with any text behind it before which it ends. -/
theorem Front.exchange (front : Front position text token rest) :
    ∃ before, text = before ++ rest ∧
      ∀ other, token.EndsBefore other → Front position (before ++ other) token other := by
  obtain ⟨⟨⟨gap, rfl, blank, start_eq⟩, stop_eq⟩, wellFormed, _⟩ := front
  refine ⟨gap ++ token.source, by simp, ?_⟩
  intro other ends
  exact ⟨⟨⟨gap, by simp, blank, start_eq⟩, stop_eq⟩, wellFormed, ends⟩

/-- A blank keeps what comes behind it apart from the tokens before it. -/
theorem scan_append_blank {tokens : List Token} (scanned : scan .between position text = tokens)
    (closed : ∀ token ∈ tokens, token.form ≠ .unclosed) (more : List Char) :
    scan .between position (text ++ ' ' :: more) =
      tokens ++ scan .between (position + utf8Len text) (' ' :: more) := by
  induction tokens generalizing position text with
  | nil =>
      have blank := tiling_nil_iff.mp (tiling_iff.mpr scanned.symm)
      rw [scan_blanks blank, List.nil_append]
  | cons token later ih =>
      obtain ⟨here, others⟩ := List.forall_mem_cons.mp closed
      obtain ⟨rest, front, behind⟩ := (tiling_iff.mpr scanned.symm).exists_front
      have ends := front.ends.append_blank here more
      have stop_eq := front.stop_add
      obtain ⟨before, rfl, exchanged⟩ := front.exchange
      rw [List.append_assoc, (exchanged _ ends).scan_eq, ih (tiling_iff.mp behind).symm others,
        stop_eq, List.cons_append]

theorem exists_front_of_scan {before after : List Token}
    (scanned : scan .between position text = before ++ after) :
    ∃ front rest, text = front ++ rest ∧ scan .between position front = before := by
  induction before generalizing position text with
  | nil => exact ⟨[], text, rfl, rfl⟩
  | cons token later ih =>
      obtain ⟨rest, front, behind⟩ := (tiling_iff.mpr scanned.symm).exists_front
      obtain ⟨inner, beyond, rfl, found⟩ := ih (tiling_iff.mp behind).symm
      have ends := front.ends.of_append
      obtain ⟨start, rfl, exchanged⟩ := front.exchange
      refine ⟨start ++ inner, beyond, by simp, ?_⟩
      rw [(exchanged inner ends).scan_eq, found]

theorem eq_of_span_eq {line : String} {first second : Token} (here : first ∈ ofLine line)
    (there : second ∈ ofLine line) (same : first.span = second.span) : first = second := by
  have tiling : Tiling 0 line.toList (ofLine line) := tiling_iff.mpr rfl
  have distinct : ((ofLine line).map span).Nodup := by
    refine List.pairwise_map.mpr (tiling.increasing.imp_of_mem ?_)
    intro earlier later member _ before equal
    have inhabited := tiling.nonempty earlier member
    rw [equal] at before inhabited
    omega
  exact List.inj_on_of_nodup_map distinct here there same

end Token

namespace Command

open Arguments

variable {line : String} {head token : Token} {tokens before : List Token} {error : SyntaxError}

/-! ## Lines with more words -/

def extended (line : String) (words : List String) : String :=
  " ".intercalate (line :: words.map quotedText)

theorem exists_ofLine_extended (closed : ∀ token ∈ Token.ofLine line, token.form ≠ .unclosed)
    {words : List String} (noQuote : ∀ word ∈ words, '"' ∉ word.toList) :
    ∃ tokens, List.Forall₂ Token.Spells tokens words ∧
      Token.ofLine (extended line words) = Token.ofLine line ++ tokens := by
  have written := Token.forall₂_spells_scan (forall₂_written_quoted noQuote)
    (0 + utf8Len line.toList)
  refine ⟨_, written, ?_⟩
  rw [Token.ofLine, extended, Token.toList_intercalate_cons]
  cases words with
  | nil =>
      rw [List.map_nil, Token.spaced, List.flatMap_nil, List.append_nil, Token.scan,
        List.append_nil, Token.ofLine]
  | cons word later => exact Token.scan_append_blank rfl closed _

def Accepted (line : String) : Prop := ∃ command, ofLine? line = .ok (some command)

def Continues (line : String) : Prop :=
  ∃ words, (∀ word ∈ words, '"' ∉ word.toList) ∧ Accepted (extended line words)

theorem ofTokens?_cons (head : Token) (tokens : List Token) :
    ofTokens? (head :: tokens) = match ofName? head.text.toLower with
      | none => .error (.unknownCommand head.text head.span)
      | some reader => (toEnd reader tokens).map some := by
  rw [ofTokens?]
  cases ofName? head.text.toLower with
  | none => rfl
  | some reader =>
      simp only [toEnd]
      cases reader tokens with
      | error problem => rfl
      | ok taken =>
          obtain ⟨command, left⟩ := taken
          cases left with
          | nil => rfl
          | cons extra others => rfl

theorem toEnd_of_refused {reader : Arguments Command}
    (named : ofName? head.text.toLower = some reader)
    (refused : ofTokens? (head :: tokens) = .error error) : toEnd reader tokens = .error error := by
  rw [ofTokens?_cons, named] at refused
  dsimp only at refused
  cases outcome : toEnd reader tokens with
  | ok command =>
      rw [outcome] at refused
      cases refused
  | error problem =>
      rw [outcome] at refused
      cases refused
      rfl

theorem takes_iff_exists_follows {name : String} {reader : Arguments Command}
    (named : ofName? name = some reader) {words : List String} :
    Takes reader words ↔ ∃ command, Follows name words command := by
  constructor
  · rintro ⟨tokens, command, spelled, ran⟩
    obtain ⟨written, again, follows⟩ := follows_of_run named (toEnd_eq_ok_iff.mp ran)
    obtain ⟨_, rfl⟩ := Token.forall₂_spells_iff.mp spelled
    obtain ⟨_, rfl⟩ := Token.forall₂_spells_iff.mp again
    exact ⟨command, follows⟩
  · rintro ⟨command, follows⟩
    obtain ⟨tokens, spelled⟩ := Token.exists_spells words
    obtain ⟨other, same, ran⟩ := exists_reader follows spelled
    cases named.symm.trans same
    exact ⟨tokens, command, spelled, toEnd_eq_ok_iff.mpr ran⟩

theorem accepted_iff (line : String) :
    Accepted line ↔ ∃ head tokens words command, Token.ofLine line = head :: tokens ∧
      List.Forall₂ Token.Spells tokens words ∧ Follows head.text.toLower words command := by
  simp only [Accepted, ofLine?_eq_some_iff]
  constructor
  · rintro ⟨command, head, tokens, words, whole, spelled, follows⟩
    exact ⟨head, tokens, words, command, whole, spelled, follows⟩
  · rintro ⟨head, tokens, words, command, whole, spelled, follows⟩
    exact ⟨command, head, tokens, words, whole, spelled, follows⟩

theorem continues_of_goesOn {reader : Arguments Command} (whole : Token.ofLine line = head :: tokens)
    (closed : ∀ token ∈ Token.ofLine line, token.form ≠ .unclosed)
    (named : ofName? head.text.toLower = some reader)
    (goesOn : GoesOn reader (tokens.map Token.text)) : Continues line := by
  obtain ⟨more, noQuote, takes⟩ := goesOn
  obtain ⟨command, follows⟩ := (takes_iff_exists_follows named).mp takes
  obtain ⟨behind, spelled, longer⟩ := exists_ofLine_extended closed noQuote
  rw [whole, List.cons_append] at longer
  rw [whole] at closed
  have own := Token.forall₂_spells_iff.mpr ⟨(List.forall_mem_cons.mp closed).2, rfl⟩
  exact ⟨more, noQuote, (accepted_iff _).mpr
    ⟨head, tokens ++ behind, _, command, longer, List.rel_append own spelled, follows⟩⟩

theorem continues_empty : Continues "" := by
  have name : "list".toLower = "list" := by decide +kernel
  have noQuote : ∀ word ∈ ["list"], '"' ∉ word.toList := by decide
  have none_ : Token.ofLine "" = [] := rfl
  have closed : ∀ token ∈ Token.ofLine "", token.form ≠ .unclosed := by simp [none_]
  obtain ⟨tokens, spelled, longer⟩ := exists_ofLine_extended closed noQuote
  obtain ⟨head, _, ⟨_, text⟩, ⟨⟩, rfl⟩ := List.forall₂_cons_right_iff.mp spelled
  refine ⟨["list"], noQuote, (accepted_iff _).mpr ⟨head, [], [], list, longer, .nil, ?_⟩⟩
  rw [text, name]
  exact .list (.inl rfl)

/-! ## Where a line goes wrong -/

/-- The tokens before the token go on as a command, as they stand in the line. No line whose words
begin with theirs and that of the token is a command, but for the words of the name of a preset, of
which the token is the first. -/
structure GoesWrong (line : String) (before : List Token) (token : Token) : Prop where
  goesOn : ∃ front rest, line = front ++ rest ∧ Token.ofLine front = before ∧ Continues front
  stuck : (∃ head target, before = [head, target] ∧ head.text.toLower = "preset") ∨
    ∀ other, (before ++ [token]).map Token.text <+: (Token.ofLine other).map Token.text →
      ¬ Accepted other

theorem goesWrong_unknownCommand (line : String)
    (unknown : ofName? head.text.toLower = none) : GoesWrong line [] head := by
  refine ⟨⟨"", line, by simp, rfl, continues_empty⟩, .inr ?_⟩
  rintro other ⟨more, begins⟩ accepted
  obtain ⟨first, tokens, words, command, there, _, follows⟩ := (accepted_iff other).mp accepted
  obtain ⟨tokens, spelled⟩ := Token.exists_spells words
  obtain ⟨reader, named, _⟩ := exists_reader follows spelled
  have same : head.text = first.text := by
    rw [there] at begins
    exact (List.cons.inj begins).1
  rw [← same, unknown] at named
  cases named

theorem goesWrong_of_culprit {reader : Arguments Command} {after : List Token}
    (whole : Token.ofLine line = head :: before ++ token :: after)
    (closed : ∀ token ∈ Token.ofLine line, token.form ≠ .unclosed)
    (named : ofName? head.text.toLower = some reader)
    (culprit : Culprit (if head.text.toLower = "preset" then some 1 else none) reader error before
      token) : GoesWrong line (head :: before) token := by
  constructor
  · obtain ⟨front, rest, cut, scanned⟩ := Token.exists_front_of_scan whole
    have shorter : Token.ofLine (String.ofList front) = head :: before := by
      rw [Token.ofLine, String.toList_ofList, scanned]
    refine ⟨String.ofList front, String.ofList rest, ?_, shorter, ?_⟩
    · rw [← String.ofList_append, ← cut, String.ofList_toList]
    · refine continues_of_goesOn shorter ?_ named culprit.goesOn
      intro other member
      rw [shorter] at member
      exact closed other (by rw [whole]; exact List.mem_append_left _ member)
  · rcases culprit.stuck with together | stuck
    · split at together
      · rename_i isPreset
        obtain ⟨target, rfl⟩ := List.length_eq_one_iff.mp (Option.some.inj together).symm
        exact .inl ⟨head, target, rfl, isPreset⟩
      · cases together
    · refine .inr ?_
      rintro other ⟨more, begins⟩ accepted
      obtain ⟨first, tokens, words, command, there, spelled, follows⟩ := (accepted_iff other).mp accepted
      obtain ⟨_, rfl⟩ := Token.forall₂_spells_iff.mp spelled
      rw [there, List.map_cons, List.cons_append, List.map_cons, List.cons_append] at begins
      obtain ⟨same, behind⟩ := List.cons.inj begins
      rw [← same, ← behind] at follows
      exact stuck more ((takes_iff_exists_follows named).mpr ⟨command, follows⟩)

/-- Where a line with no quote left open is no command, an error without a span says that the line
becomes one with more words. An error with a span says where the line goes wrong: the span is that
of one token, before which all is well. -/
theorem span?_of_error (line : String) (error : SyntaxError)
    (closed : ∀ token ∈ Token.ofLine line, token.form ≠ .unclosed)
    (refused : ofLine? line = .error error) :
    (error.span? = none → Continues line) ∧
      ∀ span, error.span? = some span → ∃ before token after,
        Token.ofLine line = before ++ token :: after ∧ token.span = span ∧
        (∀ other ∈ Token.ofLine line, other.span = span → other = token) ∧
        GoesWrong line before token := by
  rw [ofLine?] at refused
  have unique (before after : List Token) (token : Token)
      (whole : Token.ofLine line = before ++ token :: after) :
      ∀ other ∈ Token.ofLine line, other.span = token.span → other = token :=
    fun other member => Token.eq_of_span_eq member (by simp [whole])
  cases whole : Token.ofLine line with
  | nil =>
      rw [whole] at refused
      cases refused
  | cons head tokens =>
      rw [whole] at refused
      cases named : ofName? head.text.toLower with
      | none =>
          rw [ofTokens?_cons, named] at refused
          cases refused
          refine ⟨fun spanless => (by cases spanless), ?_⟩
          intro span same
          cases same
          exact ⟨[], head, tokens, rfl, rfl, whole ▸ unique [] tokens head whole,
            goesWrong_unknownCommand line named⟩
      | some reader =>
          have ran := toEnd_of_refused named refused
          have others := (List.forall_mem_cons.mp (whole ▸ closed)).2
          cases (pointed_of_ofName? named).explained tokens error others ran with
          | missing spanless goesOn =>
              refine ⟨fun _ => continues_of_goesOn whole closed named goesOn, ?_⟩
              intro span same
              rw [spanless] at same
              cases same
          | culprit before token after split culprit =>
              subst split
              refine ⟨fun spanless => ?_, ?_⟩
              · rw [culprit.span] at spanless
                cases spanless
              · intro span same
                obtain rfl : token.span = span := Option.some.inj (culprit.span.symm.trans same)
                exact ⟨head :: before, token, after, rfl, rfl,
                  whole ▸ unique (head :: before) after token whole,
                  goesWrong_of_culprit whole closed named culprit⟩

/-- A range without an end, and one with a zone that is none. -/
theorem span?_of_error_range :
    let short := "range #1 \"a b\""
    let wrong := "range #1 \"a b\" c noon"
    (∀ token ∈ Token.ofLine short, token.form ≠ .unclosed) ∧
      ofLine? short = .error (.missing .rangeEnd) ∧ Continues short ∧
      (∀ token ∈ Token.ofLine wrong, token.form ≠ .unclosed) ∧
      ofLine? wrong = .error (.unknownZone "noon" ⟨17, 21⟩) ∧
      ∃ before token after, Token.ofLine wrong = before ++ token :: after ∧
        token.span = ⟨17, 21⟩ ∧ (∀ other ∈ Token.ofLine wrong, other.span = ⟨17, 21⟩ → other = token) ∧
        GoesWrong wrong before token := by
  intro short wrong
  have closedShort : ∀ token ∈ Token.ofLine short, token.form ≠ .unclosed := by decide +kernel
  have closedWrong : ∀ token ∈ Token.ofLine wrong, token.form ≠ .unclosed := by decide +kernel
  have ends : ofLine? short = .error (.missing .rangeEnd) := by decide +kernel
  have refused : ofLine? wrong = .error (.unknownZone "noon" ⟨17, 21⟩) := by decide +kernel
  exact ⟨closedShort, ends, (span?_of_error short _ closedShort ends).1 rfl, closedWrong, refused,
    (span?_of_error wrong _ closedWrong refused).2 _ rfl⟩

-- The first word of a name is at fault although the name could go on.
example : ofLine? "preset #1 last" = .error (.unknownPreset "last" ⟨10, 14⟩) ∧
    ofLine? "preset #1 last hour" = .ok (some (preset 1 .lastHour)) := by
  decide +kernel

end Command

end WhereEditor
