import Mathlib.Data.String.Basic
import WhereEditor.Command.Token
import WhereEditor.Proofs.Support

/-!
The tokens of a line drawn one by one: pass over the blanks, then take a word or what stands between
double quotes, and leave the rest of the line. Main statement: drawing comes to an end and gives the
tokens of the line.
-/

namespace WhereEditor.Token

open String (utf8Len utf8Len_nil utf8Len_cons utf8Len_append)

def isPlain (character : Char) : Bool := !Text.isBlank character && character != '"'

/-- The part of the line that a token is read from, its quotes included. -/
def source (token : Token) : List Char :=
  match token.form with
  | .word => token.text.toList
  | .quoted => '"' :: (token.text.toList ++ ['"'])
  | .unclosed => '"' :: token.text.toList

def next? (position : Nat) (text : List Char) : Option (Token × List Char) :=
  let start := position + utf8Len (text.takeWhile Text.isBlank)
  match text.dropWhile Text.isBlank with
  | [] => none
  | first :: later =>
      if first = '"' then
        let body := later.takeWhile (· != '"')
        let stop := start + 1 + utf8Len body
        match later.dropWhile (· != '"') with
        | [] => some (⟨.unclosed, String.ofList body, ⟨start, stop⟩⟩, [])
        | _ :: rest => some (⟨.quoted, String.ofList body, ⟨start, stop + 1⟩⟩, rest)
      else
        let body := (first :: later).takeWhile isPlain
        let stop := start + utf8Len body
        some (⟨.word, String.ofList body, ⟨start, stop⟩⟩, (first :: later).dropWhile isPlain)

inductive Draws : Nat → List Char → List Token → Prop
  | done {position text} : next? position text = none → Draws position text []
  | more {position text token rest later} : next? position text = some (token, rest) →
      Draws token.span.stop rest later → Draws position text (token :: later)

/-! ## The token at the front of a text -/

/-- The text of a token holds no character that would have ended it. -/
def WellFormed (token : Token) : Prop :=
  match token.form with
  | .word => token.text ≠ "" ∧ ∀ character ∈ token.text.toList, isPlain character = true
  | .quoted | .unclosed => '"' ∉ token.text.toList

/-- A word ends before a blank, a double quote or the end; only the end leaves a quote open. -/
def EndsBefore (token : Token) (rest : List Char) : Prop :=
  match token.form with
  | .word => ∀ character ∈ rest.head?, isPlain character = false
  | .quoted => True
  | .unclosed => rest = []

structure Cut (position : Nat) (text : List Char) (token : Token) (rest : List Char) : Prop where
  whole : ∃ gap, text = gap ++ (token.source ++ rest) ∧
    (∀ character ∈ gap, Text.isBlank character = true) ∧
    token.span.start = position + utf8Len gap
  stop_eq : token.span.stop = token.span.start + utf8Len token.source

structure Front (position : Nat) (text : List Char) (token : Token) (rest : List Char) : Prop
    extends Cut position text token rest where
  wellFormed : token.WellFormed
  ends : token.EndsBefore rest

theorem isBlank_quote : Text.isBlank '"' = false := by decide

theorem utf8Size_quote : '"'.utf8Size = 1 := by decide

theorem isBlank_of_isPlain {character : Char} (plain : isPlain character = true) :
    Text.isBlank character = false := by
  simp only [isPlain, Bool.and_eq_true, Bool.not_eq_true'] at plain
  exact plain.1

theorem ne_quote_of_isPlain {character : Char} (plain : isPlain character = true) :
    character ≠ '"' := by
  simp only [isPlain, Bool.and_eq_true, bne_iff_ne] at plain
  exact plain.2

theorem source_of_word {token : Token} (word : token.form = .word) :
    token.source = token.text.toList := by
  rw [source, word]

theorem WellFormed.exists_source_eq {token : Token} (wellFormed : token.WellFormed) :
    ∃ first later, token.source = first :: later ∧ Text.isBlank first = false ∧
      (first = '"' ↔ token.form ≠ .word) := by
  rw [WellFormed] at wellFormed
  cases form : token.form with
  | word =>
      rw [form] at wellFormed
      obtain ⟨inhabited, plain⟩ := wellFormed
      cases text : token.text.toList with
      | nil => exact absurd (String.toList_eq_nil_iff.mp text) inhabited
      | cons first later =>
          have here := plain first (by simp [text])
          refine ⟨first, later, (source_of_word form).trans text, isBlank_of_isPlain here, ?_⟩
          simp [ne_quote_of_isPlain here]
  | quoted => exact ⟨'"', _, by rw [source, form], isBlank_quote, by simp⟩
  | unclosed => exact ⟨'"', _, by rw [source, form], isBlank_quote, by simp⟩

theorem WellFormed.source_ne_nil {token : Token} (wellFormed : token.WellFormed) :
    token.source ≠ [] := by
  obtain ⟨first, later, begins, _⟩ := wellFormed.exists_source_eq
  simp [begins]

theorem isBlank_of_next?_eq_none {position : Nat} {text : List Char}
    (none : next? position text = none) : ∀ character ∈ text, Text.isBlank character = true := by
  rw [next?] at none
  split at none
  · rename_i blank
    exact List.dropWhile_eq_nil_iff.mp blank
  · split at none
    · split at none <;> exact absurd none (by simp)
    · exact absurd none (by simp)

theorem front_of_next? {position : Nat} {text rest : List Char} {token : Token}
    (drawn : next? position text = some (token, rest)) : Front position text token rest := by
  obtain ⟨whole, blank, notBlank⟩ := cut_at_first_failure Text.isBlank text
  rw [next?] at drawn
  generalize text.takeWhile Text.isBlank = gap at drawn whole blank
  generalize text.dropWhile Text.isBlank = beyond at drawn whole notBlank
  subst whole
  cases beyond with
  | nil => exact absurd drawn (by simp)
  | cons first later =>
      by_cases quote : first = '"'
      · subst quote
        simp only [if_true] at drawn
        obtain ⟨whole, inside, closing⟩ := cut_at_first_failure (· != '"') later
        generalize later.takeWhile (· != '"') = body at drawn whole inside
        generalize later.dropWhile (· != '"') = left at drawn whole closing
        subst whole
        have noQuote : '"' ∉ body := fun member => absurd (inside _ member) (by simp)
        cases left with
        | nil =>
            cases drawn
            refine ⟨⟨⟨gap, by simp [source], blank, rfl⟩, ?_⟩, by simpa [WellFormed], rfl⟩
            simp only [source, String.toList_ofList, utf8Len_cons, utf8Size_quote]
            omega
        | cons last rest =>
            have closed : last = '"' := by simpa using closing
            cases drawn
            refine ⟨⟨⟨gap, by simp [source, closed], blank, rfl⟩, ?_⟩, by simpa [WellFormed], trivial⟩
            simp only [source, String.toList_ofList, utf8Len_cons, utf8Len_append, utf8Len_nil,
              utf8Size_quote]
            omega
      · simp only [quote, if_false] at drawn
        obtain ⟨whole, plain, after⟩ := cut_at_first_failure isPlain (first :: later)
        have inhabited : (first :: later).takeWhile isPlain ≠ [] := by
          have here : isPlain first = true := by simpa [isPlain, quote] using notBlank
          simp [here]
        generalize (first :: later).takeWhile isPlain = body at drawn whole plain inhabited
        generalize (first :: later).dropWhile isPlain = left at drawn whole after
        cases drawn
        rw [whole]
        exact ⟨⟨⟨gap, by simp [source], blank, rfl⟩, by simp [source]⟩,
          ⟨by simpa using inhabited, by simpa using plain⟩, after⟩

theorem Front.length_lt {position : Nat} {text rest : List Char} {token : Token}
    (front : Front position text token rest) : rest.length < text.length := by
  obtain ⟨gap, rfl, _⟩ := front.whole
  have positive := List.length_pos_iff.mpr front.wellFormed.source_ne_nil
  simp only [List.length_append]
  omega

/-! ## The scan of a line -/

theorem scan_blanks {gap : List Char} (blank : ∀ character ∈ gap, Text.isBlank character = true)
    (position : Nat) (rest : List Char) :
    scan .between position (gap ++ rest) = scan .between (position + utf8Len gap) rest := by
  induction gap generalizing position with
  | nil => rfl
  | cons character gap ih =>
      obtain ⟨here, later⟩ := List.forall_mem_cons.mp blank
      rw [List.cons_append, scan, if_pos here, ih later, utf8Len_cons, Nat.add_comm (utf8Len gap),
        Nat.add_assoc]

theorem scan_plain {body : List Char} (plain : ∀ character ∈ body, isPlain character = true)
    (start position : Nat) (reversed rest : List Char) :
    scan (.inWord start reversed) position (body ++ rest) =
      scan (.inWord start (body.reverse ++ reversed)) (position + utf8Len body) rest := by
  induction body generalizing position reversed with
  | nil => rfl
  | cons character body ih =>
      obtain ⟨here, later⟩ := List.forall_mem_cons.mp plain
      rw [List.cons_append, scan, if_neg (by simp [isBlank_of_isPlain here]),
        if_neg (ne_quote_of_isPlain here), ih later]
      simp [Nat.add_assoc, Nat.add_comm]

theorem scan_noQuote {body : List Char} (noQuote : '"' ∉ body) (start position : Nat)
    (reversed rest : List Char) :
    scan (.inQuotes start reversed) position (body ++ rest) =
      scan (.inQuotes start (body.reverse ++ reversed)) (position + utf8Len body) rest := by
  induction body generalizing position reversed with
  | nil => rfl
  | cons character body ih =>
      obtain ⟨here, later⟩ := not_or.mp (List.mem_cons.not.mp noQuote)
      rw [List.cons_append, scan, if_neg (Ne.symm here), ih later]
      simp [Nat.add_assoc, Nat.add_comm]

theorem scan_endOfWord {rest : List Char} (after : ∀ character ∈ rest.head?, isPlain character = false)
    (start position : Nat) (reversed : List Char) :
    scan (.inWord start reversed) position rest =
      finish .word start position reversed :: scan .between position rest := by
  cases rest with
  | nil => rfl
  | cons character rest =>
      have ends := after character rfl
      by_cases blank : Text.isBlank character
      · simp [scan, blank]
      · have quote : character = '"' := by simpa [isPlain, blank] using ends
        simp [scan, quote, isBlank_quote]

theorem scan_openingQuote (position : Nat) (rest : List Char) :
    scan .between position ('"' :: rest) = scan (.inQuotes position []) (position + 1) rest := by
  rw [scan, if_neg (by simp [isBlank_quote]), if_pos rfl, utf8Size_quote]

theorem scan_closingQuote (start position : Nat) (reversed rest : List Char) :
    scan (.inQuotes start reversed) position ('"' :: rest) =
      finish .quoted start (position + 1) reversed :: scan .between (position + 1) rest := by
  rw [scan, if_pos rfl, utf8Size_quote]

theorem Front.scan_eq {position : Nat} {text rest : List Char} {token : Token}
    (front : Front position text token rest) :
    scan .between position text = token :: scan .between token.span.stop rest := by
  obtain ⟨⟨⟨gap, rfl, blank, start_eq⟩, stop_eq⟩, wellFormed, ends⟩ := front
  obtain ⟨form, text, start, stop⟩ := token
  rw [scan_blanks blank]
  cases form with
  | word =>
      obtain ⟨inhabited, plain⟩ := wellFormed
      simp only [source] at start_eq stop_eq ⊢
      subst start_eq stop_eq
      cases body : text.toList with
      | nil => exact absurd (String.toList_eq_nil_iff.mp body) inhabited
      | cons first later =>
          obtain ⟨here, others⟩ := List.forall_mem_cons.mp (body ▸ plain)
          rw [List.cons_append, scan, if_neg (by simp [isBlank_of_isPlain here]),
            if_neg (ne_quote_of_isPlain here), scan_plain others, scan_endOfWord ends]
          have whole : String.ofList (first :: later) = text := by
            rw [← body, String.ofList_toList]
          simp [finish, whole, Nat.add_assoc, Nat.add_comm, Nat.add_left_comm]
  | quoted =>
      have noQuote : '"' ∉ text.toList := wellFormed
      simp only [source] at start_eq stop_eq ⊢
      subst start_eq stop_eq
      rw [List.cons_append, scan_openingQuote, List.append_assoc, scan_noQuote noQuote,
        List.singleton_append, scan_closingQuote]
      simp [finish, utf8Size_quote, Nat.add_assoc, Nat.add_comm, Nat.add_left_comm]
  | unclosed =>
      have noQuote : '"' ∉ text.toList := wellFormed
      have nothing : rest = [] := ends
      simp only [source] at start_eq stop_eq ⊢
      subst start_eq stop_eq nothing
      rw [List.cons_append, scan_openingQuote, scan_noQuote noQuote]
      simp [finish, scan, utf8Size_quote, Nat.add_assoc, Nat.add_comm, Nat.add_left_comm]

theorem scan_eq_nil {text : List Char} (blank : ∀ character ∈ text, Text.isBlank character = true)
    (position : Nat) : scan .between position text = [] := by
  rw [← text.append_nil, scan_blanks blank, scan]

/-- Drawing goes on to the end of the text, and takes a finite number of tokens for it. -/
theorem draws_iff {position : Nat} {text : List Char} {tokens : List Token} :
    Draws position text tokens ↔ tokens = scan .between position text := by
  constructor
  · intro drawn
    induction drawn with
    | done none => exact (scan_eq_nil (isBlank_of_next?_eq_none none) _).symm
    | more first _ ih => rw [(front_of_next? first).scan_eq, ih]
  · rintro rfl
    -- The text that is left gets shorter with every token.
    induction length : text.length using Nat.strongRecOn generalizing position text with
    | ind count ih =>
        cases first : next? position text with
        | none =>
            rw [scan_eq_nil (isBlank_of_next?_eq_none first)]
            exact .done first
        | some drawn =>
            have front := front_of_next? first
            rw [front.scan_eq]
            exact .more first (ih drawn.2.length (length ▸ front.length_lt) rfl)

end WhereEditor.Token
