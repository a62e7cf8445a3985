import Mathlib.Data.List.Chain
import WhereEditor.Proofs.Command.Drawing

/-!
How tokens lie on a line. Main statement: a list of tokens tiles a line, with nothing but blanks
between them, if and only if it is the list of the tokens of the line.
-/

namespace WhereEditor

open String (utf8Len utf8Len_nil utf8Len_cons utf8Len_append utf8Len_eq_zero)

/-- A piece of a text that begins at byte `position` takes up a span, from the beginning of one
character to the beginning of another. -/
def Span.Covers (span : Span) (position : Nat) (text piece : List Char) : Prop :=
  ∃ before beyond, text = before ++ (piece ++ beyond) ∧ span.start = position + utf8Len before ∧
    span.stop = span.start + utf8Len piece

namespace Token

def gaps (stop : Nat) : Nat → List Token → List Span
  | start, [] => [⟨start, stop⟩]
  | start, token :: later => ⟨start, token.span.start⟩ :: gaps stop token.span.stop later

structure Tiling (position : Nat) (text : List Char) (tokens : List Token) : Prop where
  nonempty : ∀ token ∈ tokens, token.span.start < token.span.stop
  increasing : tokens.Pairwise fun earlier later => earlier.span.stop ≤ later.span.start
  covered : ∀ token ∈ tokens, token.span.Covers position text token.source
  blank : ∀ gap ∈ gaps (position + utf8Len text) position tokens,
    ∃ piece, gap.Covers position text piece ∧ ∀ character ∈ piece, Text.isBlank character = true
  wellFormed : ∀ token ∈ tokens, token.WellFormed
  /-- A quote that is left open runs to the end, and nothing comes after it. -/
  last : ∀ token ∈ tokens, token.form = .unclosed →
    token.span.stop = position + utf8Len text ∧ tokens.getLast? = some token
  /-- There is a gap between two words. -/
  apart : tokens.IsChain fun earlier later =>
    earlier.form = .word → later.form = .word → earlier.span.stop < later.span.start

end Token

/-! ## Spans -/

theorem exists_append_of_utf8Len_le {first second rest beyond : List Char}
    (same : first ++ rest = second ++ beyond) (le : utf8Len first ≤ utf8Len second) :
    ∃ between, second = first ++ between ∧ rest = between ++ beyond := by
  rcases List.append_eq_append_iff.mp same with found | ⟨excess, longer, shorter⟩
  · exact found
  · rw [longer, utf8Len_append] at le
    have none : excess = [] := utf8Len_eq_zero.mp (by omega)
    exact ⟨[], by simp [longer, none], by simp [shorter, none]⟩

namespace Span

variable {span : Span} {position stop : Nat} {front rest text piece : List Char}

theorem covers_append_iff : span.Covers (position + utf8Len front) rest piece ↔
    span.Covers position (front ++ rest) piece ∧ position + utf8Len front ≤ span.start := by
  constructor
  · rintro ⟨before, beyond, rfl, start_eq, stop_eq⟩
    refine ⟨⟨front ++ before, beyond, by simp, ?_, stop_eq⟩, by omega⟩
    rw [utf8Len_append]
    omega
  · rintro ⟨⟨before, beyond, whole, start_eq, stop_eq⟩, le⟩
    obtain ⟨between, rfl, rest_eq⟩ := exists_append_of_utf8Len_le whole (by omega)
    refine ⟨between, beyond, rest_eq, ?_, stop_eq⟩
    rw [utf8Len_append] at start_eq
    omega

theorem covers_front_iff : Covers ⟨position, stop⟩ position text piece ↔
    ∃ beyond, text = piece ++ beyond ∧ stop = position + utf8Len piece := by
  constructor
  · rintro ⟨before, beyond, whole, start_eq, stop_eq⟩
    have none : before = [] := utf8Len_eq_zero.mp (by simp only at start_eq; omega)
    exact ⟨beyond, by simpa [none] using whole, stop_eq⟩
  · rintro ⟨beyond, whole, stop_eq⟩
    exact ⟨[], beyond, whole, rfl, stop_eq⟩

end Span

namespace Token

variable {position : Nat} {text rest : List Char} {token : Token} {later tokens : List Token}

/-! ## Tilings token by token -/

theorem Cut.stop_add (cut : Cut position text token rest) :
    token.span.stop + utf8Len rest = position + utf8Len text := by
  obtain ⟨⟨gap, rfl, _, start_eq⟩, stop_eq⟩ := cut
  rw [stop_eq, start_eq, utf8Len_append, utf8Len_append]
  omega

theorem Cut.covers_iff (cut : Cut position text token rest) {span : Span} {piece : List Char} :
    span.Covers token.span.stop rest piece ↔
      span.Covers position text piece ∧ token.span.stop ≤ span.start := by
  obtain ⟨⟨gap, rfl, _, start_eq⟩, stop_eq⟩ := cut
  have stop_eq : token.span.stop = position + utf8Len (gap ++ token.source) := by
    rw [stop_eq, start_eq, utf8Len_append]
    omega
  rw [stop_eq, ← List.append_assoc, Span.covers_append_iff]

theorem gaps_start {start stop : Nat} {gap : Span} (member : gap ∈ gaps stop start tokens) :
    gap.start = start ∨ ∃ token ∈ tokens, gap.start = token.span.stop := by
  induction tokens generalizing start with
  | nil => exact .inl (List.mem_singleton.mp member ▸ rfl)
  | cons token later ih =>
      rcases List.mem_cons.mp member with rfl | further
      · exact .inl rfl
      · rcases ih further with same | ⟨other, inside, same⟩
        · exact .inr ⟨token, List.mem_cons_self, same⟩
        · exact .inr ⟨other, List.mem_cons_of_mem _ inside, same⟩

theorem tiling_nil_iff : Tiling position text [] ↔
    ∀ character ∈ text, Text.isBlank character = true := by
  constructor
  · intro tiling
    obtain ⟨piece, covers, blank⟩ := tiling.blank _ (List.mem_singleton_self _)
    obtain ⟨beyond, rfl, stop_eq⟩ := Span.covers_front_iff.mp covers
    have none : beyond = [] := utf8Len_eq_zero.mp (by rw [utf8Len_append] at stop_eq; omega)
    simpa [none] using blank
  · intro blank
    refine ⟨by simp, .nil, by simp, ?_, by simp, by simp, .nil⟩
    intro gap member
    obtain rfl := List.mem_singleton.mp member
    exact ⟨text, Span.covers_front_iff.mpr ⟨[], by simp, rfl⟩, blank⟩

theorem Tiling.exists_eq_cons {first : Char} {others : List Char}
    (tiling : Tiling position (first :: others) tokens) (notBlank : Text.isBlank first = false) :
    ∃ token later, tokens = token :: later ∧ token.span.start = position ∧
      (first = '"' ↔ token.form ≠ .word) := by
  cases tokens with
  | nil =>
      have blank := tiling_nil_iff.mp tiling first List.mem_cons_self
      exact absurd blank (by simp [notBlank])
  | cons token later =>
      obtain ⟨piece, covers, blank⟩ := tiling.blank _ List.mem_cons_self
      obtain ⟨beyond, whole, start_eq⟩ := Span.covers_front_iff.mp covers
      have none : piece = [] := by
        cases piece with
        | nil => rfl
        | cons character piece =>
            have same : first = character := (List.cons.inj whole).1
            exact absurd (blank character List.mem_cons_self) (by simp [← same, notBlank])
      have atFront : token.span.start = position := by simpa [none] using start_eq
      obtain ⟨before, after, cut, start_eq, _⟩ := tiling.covered token List.mem_cons_self
      have nothing : before = [] := utf8Len_eq_zero.mp (by omega)
      obtain ⟨head, more, source, _, quote⟩ :=
        (tiling.wellFormed token List.mem_cons_self).exists_source_eq
      have same : first = head := by simpa [nothing, source] using congrArg List.head? cut
      exact ⟨token, later, rfl, atFront, same ▸ quote⟩

theorem Tiling.exists_cut (tiling : Tiling position text (token :: later)) :
    ∃ rest, Cut position text token rest := by
  obtain ⟨gap, covers, blank⟩ := tiling.blank _ List.mem_cons_self
  obtain ⟨beyond, whole, start_eq⟩ := Span.covers_front_iff.mp covers
  obtain ⟨before, rest, cut, same, stop_eq⟩ := tiling.covered token List.mem_cons_self
  obtain ⟨between, longer, _⟩ := exists_append_of_utf8Len_le (whole.symm.trans cut) (by omega)
  have none : between = [] := by
    rw [longer, utf8Len_append] at same
    exact utf8Len_eq_zero.mp (by omega)
  have gap_eq : before = gap := by simpa [none] using longer
  exact ⟨rest, ⟨gap, gap_eq ▸ cut, blank, start_eq⟩, stop_eq⟩

theorem Tiling.tail (tiling : Tiling position text (token :: later))
    (cut : Cut position text token rest) : Tiling token.span.stop rest later := by
  obtain ⟨nonempty, increasing, covered, blank, wellFormed, last, apart⟩ := tiling
  obtain ⟨behind, increasing⟩ := List.pairwise_cons.mp increasing
  obtain ⟨_, nonempty⟩ := List.forall_mem_cons.mp nonempty
  obtain ⟨_, covered⟩ := List.forall_mem_cons.mp covered
  obtain ⟨_, last⟩ := List.forall_mem_cons.mp last
  refine ⟨nonempty, increasing, ?_, ?_, (List.forall_mem_cons.mp wellFormed).2, ?_, apart.tail⟩
  · exact fun other member => cut.covers_iff.mpr ⟨covered other member, behind other member⟩
  · intro gap member
    rw [cut.stop_add] at member
    obtain ⟨piece, covers, blanks⟩ := blank gap (List.mem_cons_of_mem _ member)
    have further : token.span.stop ≤ gap.start := by
      rcases gaps_start member with same | ⟨other, inside, same⟩
      · omega
      · have after := behind other inside
        have positive := nonempty other inside
        omega
    exact ⟨piece, cut.covers_iff.mpr ⟨covers, further⟩, blanks⟩
  · intro other member unclosed
    obtain ⟨stop_eq, final⟩ := last other member unclosed
    obtain ⟨next, more, rfl⟩ := List.exists_cons_of_ne_nil (List.ne_nil_of_mem member)
    exact ⟨stop_eq.trans cut.stop_add.symm, by rwa [List.getLast?_cons_cons] at final⟩

theorem Tiling.exists_front (tiling : Tiling position text (token :: later)) :
    ∃ rest, Front position text token rest ∧ Tiling token.span.stop rest later := by
  obtain ⟨rest, cut⟩ := tiling.exists_cut
  have behind := tiling.tail cut
  refine ⟨rest, ⟨cut, tiling.wellFormed token List.mem_cons_self, ?_⟩, behind⟩
  rw [EndsBefore]
  cases form : token.form with
  | word =>
      intro first atFront
      by_contra plain
      rw [Bool.not_eq_false] at plain
      obtain ⟨others, rfl⟩ := List.head?_eq_some_iff.mp atFront
      -- What follows a word without a gap is a word itself, unless it begins with a quote.
      obtain ⟨next, more, rfl, start_eq, quote⟩ := behind.exists_eq_cons (isBlank_of_isPlain plain)
      have another : next.form = .word := by simpa [ne_quote_of_isPlain plain] using quote
      have gap := (List.isChain_cons_cons.mp tiling.apart).1 form another
      omega
  | quoted => trivial
  | unclosed =>
      have stop_eq := (tiling.last token List.mem_cons_self form).1
      have whole := cut.stop_add
      exact utf8Len_eq_zero.mp (by omega)

theorem Tiling.eq_nil (tiling : Tiling position [] tokens) : tokens = [] := by
  cases tokens with
  | nil => rfl
  | cons token later =>
      obtain ⟨before, beyond, whole, _, _⟩ := tiling.covered token List.mem_cons_self
      have source := (tiling.wellFormed token List.mem_cons_self).source_ne_nil
      exact absurd whole (by simp [source])

theorem Tiling.cons (front : Front position text token rest)
    (tiling : Tiling token.span.stop rest later) : Tiling position text (token :: later) := by
  obtain ⟨gap, whole, blank, start_eq⟩ := front.whole
  have stop_eq := front.stop_eq
  have inhabited : 0 < utf8Len token.source :=
    Nat.pos_of_ne_zero (utf8Len_eq_zero.not.mpr front.wellFormed.source_ne_nil)
  refine ⟨?_, ?_, ?_, ?_, ?_, ?_, ?_⟩
  · exact List.forall_mem_cons.mpr ⟨by omega, tiling.nonempty⟩
  · refine List.pairwise_cons.mpr ⟨?_, tiling.increasing⟩
    exact fun other member => (front.covers_iff.mp (tiling.covered other member)).2
  · refine List.forall_mem_cons.mpr ⟨⟨gap, rest, whole, start_eq, stop_eq⟩, ?_⟩
    exact fun other member => (front.covers_iff.mp (tiling.covered other member)).1
  · refine List.forall_mem_cons.mpr ⟨?_, ?_⟩
    · exact ⟨gap, Span.covers_front_iff.mpr ⟨_, whole, start_eq⟩, blank⟩
    · intro other member
      rw [← front.stop_add] at member
      obtain ⟨piece, covers, blanks⟩ := tiling.blank other member
      exact ⟨piece, (front.covers_iff.mp covers).1, blanks⟩
  · exact List.forall_mem_cons.mpr ⟨front.wellFormed, tiling.wellFormed⟩
  · refine List.forall_mem_cons.mpr ⟨?_, ?_⟩
    · intro unclosed
      have ends := front.ends
      rw [EndsBefore, unclosed] at ends
      have atEnd := front.stop_add
      subst ends
      exact ⟨by simpa using atEnd, by simp [tiling.eq_nil]⟩
    · intro other member unclosed
      obtain ⟨stop_eq, final⟩ := tiling.last other member unclosed
      exact ⟨stop_eq.trans front.stop_add, by rw [List.getLast?_cons, final]; rfl⟩
  · cases later with
    | nil => exact .singleton _
    | cons next more =>
        refine List.isChain_cons_cons.mpr ⟨?_, tiling.apart⟩
        intro word another
        by_contra close
        -- The word that follows would go on with this one.
        have covers := tiling.covered next List.mem_cons_self
        have further := (front.covers_iff.mp covers).2
        obtain ⟨before, beyond, whole, start_eq, _⟩ := covers
        have none : before = [] := utf8Len_eq_zero.mp (by omega)
        have ends := front.ends
        rw [EndsBefore, word] at ends
        obtain ⟨first, others, source, notBlank, quote⟩ :=
          (tiling.wellFormed next List.mem_cons_self).exists_source_eq
        have stops := ends first (by simp [whole, none, source])
        have plain : first ≠ '"' := fun same => quote.mp same another
        simp [isPlain, notBlank, plain] at stops

theorem tiling_iff : Tiling position text tokens ↔ tokens = scan .between position text := by
  constructor
  · intro tiling
    induction tokens generalizing position text with
    | nil => exact (scan_eq_nil (tiling_nil_iff.mp tiling) position).symm
    | cons token later ih =>
        obtain ⟨rest, front, behind⟩ := tiling.exists_front
        rw [front.scan_eq, ih behind]
  · intro scanned
    have drawn := draws_iff.mpr scanned
    induction drawn with
    | done none => exact tiling_nil_iff.mpr (isBlank_of_next?_eq_none none)
    | more first behind ih => exact .cons (front_of_next? first) (ih (draws_iff.mp behind))

/-- Drawing tokens from a line comes to an end, with the tokens of the line, and no other tokens tile
the line. -/
theorem eq_ofLine_iff (line : String) (tokens : List Token) :
    (Draws 0 line.toList tokens ↔ tokens = ofLine line) ∧
      (Tiling 0 line.toList tokens ↔ tokens = ofLine line) :=
  ⟨draws_iff, tiling_iff⟩

-- A quote ends a word of two bytes, a word follows a quote at once, and the last quote is open.
example : ofLine "é\"b c\"d \"" =
    [⟨.word, "é", ⟨0, 2⟩⟩, ⟨.quoted, "b c", ⟨2, 7⟩⟩, ⟨.word, "d", ⟨7, 8⟩⟩,
      ⟨.unclosed, "", ⟨9, 10⟩⟩] := by
  decide +kernel

end Token

end WhereEditor
