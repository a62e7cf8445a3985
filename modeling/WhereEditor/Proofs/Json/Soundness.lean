import WhereEditor.Proofs.Json.Grammar

/-!
What the reader of JSON accepts. Main statement: a text is read as a value just if it spells the value.
-/

namespace WhereEditor.Json

/-! ## Strings -/

theorem isHexDigit_of_hexValue? {value : Nat} {digit : Char}
    (named : hexValue? digit = some value) : IsHexDigit value digit := by
  have table : ∀ code < 103, ∀ value ∈ hexValue? (Char.ofNat code), value < 16 ∧
      (Char.ofNat code = value.digitChar ∨ Char.ofNat code = value.digitChar.toUpper) := by decide
  have small : digit.toNat < 103 := by
    by_contra large
    have digits : ¬digit.isDigit = true := by
      simp only [Char.isDigit, Bool.and_eq_true, decide_eq_true_eq, UInt32.le_iff_toNat_le]
      change ¬(48 ≤ digit.toNat ∧ digit.toNat ≤ 57)
      omega
    have lower : ¬('a' ≤ digit ∧ digit ≤ 'f') := by
      change ¬(97 ≤ digit.toNat ∧ digit.toNat ≤ 102)
      omega
    have upper : ¬('A' ≤ digit ∧ digit ≤ 'F') := by
      change ¬(65 ≤ digit.toNat ∧ digit.toNat ≤ 70)
      omega
    simp [hexValue?, digits, lower, upper] at named
  rw [← Char.ofNat_toNat digit] at named ⊢
  exact table _ small value named

theorem exists_isHex_of_hexPiece? {piece : Piece} {a b c d : Char}
    (named : hexPiece? [a, b, c, d] = some piece) :
    ∃ code, IsHex code [a, b, c, d] ∧ piece = codePiece code := by
  obtain ⟨values, each, code⟩ := Option.bind_eq_some_iff.mp named
  simp only [List.mapM_cons, List.mapM_nil, bind, Option.bind_eq_some_iff, pure] at each
  obtain ⟨va, ha, _, ⟨vb, hb, _, ⟨vc, hc, _, ⟨vd, hd, _, ⟨⟩, ⟨⟩⟩, ⟨⟩⟩, ⟨⟩⟩, ⟨⟩⟩ := each
  have first := isHexDigit_of_hexValue? ha
  have second := isHexDigit_of_hexValue? hb
  have third := isHexDigit_of_hexValue? hc
  have fourth := isHexDigit_of_hexValue? hd
  have places : ∀ code, code = 16 * (16 * (16 * (16 * 0 + va) + vb) + vc) + vd →
      code / 4096 = va ∧ code / 256 % 16 = vb ∧ code / 16 % 16 = vc ∧ code % 16 = vd := by
    have small := And.intro first.1 (And.intro second.1 (And.intro third.1 fourth.1))
    omega
  refine ⟨[va, vb, vc, vd].foldl (16 * · + ·) 0, ?_, ?_⟩
  · obtain ⟨highest, high, low, lowest⟩ := places _ rfl
    rw [IsHex, List.foldl_cons, List.foldl_cons, List.foldl_cons, List.foldl_cons, List.foldl_nil,
      highest, high, low, lowest]
    exact .cons first (.cons second (.cons third (.cons fourth .nil)))
  · exact (Option.some.inj ((apply_ite some _ _ _).trans code)).symm

theorem isPiece_of_isHex {code : Nat} {digits : List Char} (hex : IsHex code digits) :
    IsPiece (codePiece code) ('\\' :: 'u' :: digits) := by
  have small : code < 65536 := by
    obtain ⟨_, _, first, _, _⟩ := List.forall₂_cons_left_iff.mp hex
    have highest := first.1
    omega
  by_cases half : 0xD800 ≤ code ∧ code ≤ 0xDFFF
  · rw [codePiece, if_pos half]
    exact .half half.1 half.2 hex
  · have valid : code.isValidChar := by
      rcases Nat.lt_or_ge code 0xD800 with before | behind
      · exact .inl before
      · exact .inr (by omega)
    rw [codePiece, if_neg half]
    exact .code (by rwa [toNat_ofNat valid])

theorem mem_escapes_of_escaped? {character mark : Char} (named : escaped? mark = some character) :
    (character, mark) ∈ escapes := by
  have table : escaped? mark = (escapes.map Prod.swap).lookup mark := rfl
  obtain ⟨before, after, whole, _⟩ := List.lookup_eq_some_iff.mp (table.symm.trans named)
  have member : (mark, character) ∈ escapes.map Prod.swap := by simp [whole]
  obtain ⟨entry, among, same⟩ := List.mem_map.mp member
  cases same
  exact among

theorem exists_body_of_pieces? {text rest : List Char} {pieces : List Piece}
    (read : pieces? text = some (pieces, rest)) :
    ∃ body, IsBody pieces body ∧ text = body ++ '"' :: rest := by
  fun_induction pieces? text generalizing pieces rest with
  | case1 => cases read
  | case2 beyond =>
      cases read
      exact ⟨[], .nil, rfl⟩
  | case3 a b c d beyond ih =>
      simp only [bind, Option.bind_eq_some_iff] at read
      obtain ⟨piece, named, ⟨others, last⟩, further, same⟩ := read
      cases same
      obtain ⟨code, hex, rfl⟩ := exists_isHex_of_hexPiece? named
      obtain ⟨body, inner, rfl⟩ := ih further
      exact ⟨_, .cons (isPiece_of_isHex hex) inner, rfl⟩
  | case4 mark beyond _ ih =>
      simp only [bind, Option.bind_eq_some_iff] at read
      obtain ⟨character, named, ⟨others, last⟩, further, same⟩ := read
      cases same
      obtain ⟨body, inner, rfl⟩ := ih further
      exact ⟨_, .cons (.mark (mem_escapes_of_escaped? named)) inner, rfl⟩
  | case5 => cases read
  | case6 character beyond quote _ escape visible ih =>
      obtain ⟨⟨others, last⟩, further, same⟩ := Option.map_eq_some_iff.mp read
      cases same
      -- A backslash gets here at the end of the text only, where no quote follows.
      have backslash : character ≠ '\\' := by
        rintro rfl
        cases beyond with
        | nil => cases further
        | cons mark beyond => exact escape mark beyond rfl rfl
      obtain ⟨body, inner, rfl⟩ := ih further
      exact ⟨_, .cons (.plain (Nat.not_lt.mp visible) quote backslash) inner, rfl⟩

theorem exists_string_of_stringBody? {text rest : List Char} {string : Option String}
    (read : stringBody? text = some (string, rest)) :
    ∃ written, IsString string written ∧ '"' :: text = written ++ rest := by
  obtain ⟨⟨pieces, beyond⟩, found, same⟩ := Option.map_eq_some_iff.mp read
  cases same
  obtain ⟨body, inner, rfl⟩ := exists_body_of_pieces? found
  refine ⟨'"' :: body ++ ['"'], ?_, by simp⟩
  cases whole : assemble? pieces with
  | some text =>
      have quotes := inner.quotes whole
      exact .text (by rwa [String.toList_ofList])
  | none =>
      -- What is between the quotes has one reading, so it cannot write a text in another way.
      refine .loose inner fun text quotes => ?_
      obtain ⟨others, written, joined⟩ := quotes.exists_pieces
      have both := (pieces?_body written []).symm.trans (pieces?_body inner [])
      cases both
      rw [whole] at joined
      cases joined

/-! ## Numbers -/

theorem exists_digits_of_digitsAfter? {mark text taken rest : List Char}
    (read : digitsAfter? mark text = some (taken, rest)) :
    ∃ run, IsDigits run ∧ taken = mark ++ run ∧ text = run ++ rest := by
  simp only [digitsAfter?, digits, List.span_eq_takeWhile_dropWhile,
    Option.ite_none_left_eq_some, List.isEmpty_iff] at read
  obtain ⟨filled, same⟩ := read
  cases same
  exact ⟨_, ⟨filled, fun _ member => List.mem_takeWhile_imp member⟩, rfl,
    List.takeWhile_append_dropWhile.symm⟩

theorem isWhole_of_whole? {text whole rest : List Char} (read : whole? text = some (whole, rest)) :
    IsWhole whole ∧ text = whole ++ rest := by
  unfold whole? at read
  split at read
  · cases read
    exact ⟨.zero, rfl⟩
  · rename_i nonzero
    obtain ⟨run, digits, rfl, rfl⟩ := exists_digits_of_digitsAfter? read
    obtain ⟨first, others, rfl⟩ := List.exists_cons_of_ne_nil digits.1
    refine ⟨.other ?_ digits, rfl⟩
    rintro rfl
    exact nonzero _ rfl

theorem isFraction_of_fraction? {text fraction rest : List Char}
    (read : fraction? text = some (fraction, rest)) :
    IsFraction fraction ∧ text = fraction ++ rest := by
  unfold fraction? at read
  split at read
  · obtain ⟨run, digits, rfl, rfl⟩ := exists_digits_of_digitsAfter? read
    exact ⟨.digits digits, rfl⟩
  · cases read
    exact ⟨.none, rfl⟩

theorem isExponent_of_exponent? {text exponent rest : List Char}
    (read : exponent? text = some (exponent, rest)) :
    IsExponent exponent ∧ text = exponent ++ rest := by
  unfold exponent? at read
  split at read
  · rename_i mark beyond
    split at read
    · rename_i marked
      split at read
      · obtain ⟨run, digits, rfl, rfl⟩ := exists_digits_of_digitsAfter? read
        exact ⟨.digits marked (.inr (.inl rfl)) digits, rfl⟩
      · obtain ⟨run, digits, rfl, rfl⟩ := exists_digits_of_digitsAfter? read
        exact ⟨.digits marked (.inr (.inr rfl)) digits, rfl⟩
      · obtain ⟨run, digits, rfl, rfl⟩ := exists_digits_of_digitsAfter? read
        exact ⟨.digits marked (.inl rfl) digits, rfl⟩
    · cases read
      exact ⟨.none, rfl⟩
  · cases read
    exact ⟨.none, rfl⟩

theorem isNumeral_of_number? {text rest : List Char} {value : Json}
    (read : number? text = some (value, rest)) :
    ∃ numeral, IsNumeral numeral ∧ value = number (String.ofList numeral) ∧
      text = numeral ++ rest := by
  have cut : ∃ sign unsigned, (sign = [] ∨ sign = ['-']) ∧ text = sign ++ unsigned ∧
      number? text = (whole? unsigned).bind fun whole => (fraction? whole.2).bind fun fraction =>
        (exponent? fraction.2).bind fun exponent =>
          some (number (String.ofList (sign ++ whole.1 ++ fraction.1 ++ exponent.1)), exponent.2) := by
    cases text with
    | nil => exact ⟨[], [], .inl rfl, rfl, rfl⟩
    | cons first rest =>
        by_cases minus : first = '-'
        · exact ⟨['-'], rest, .inr rfl, by simp [minus], by rw [minus]; rfl⟩
        · refine ⟨[], first :: rest, .inl rfl, rfl, ?_⟩
          simp [number?, minus, bind]
  obtain ⟨sign, unsigned, signed, rfl, same⟩ := cut
  rw [same] at read
  obtain ⟨⟨whole, afterWhole⟩, first, read⟩ := Option.bind_eq_some_iff.mp read
  obtain ⟨⟨fraction, afterFraction⟩, second, read⟩ := Option.bind_eq_some_iff.mp read
  obtain ⟨⟨exponent, last⟩, third, read⟩ := Option.bind_eq_some_iff.mp read
  cases read
  obtain ⟨isWhole, rfl⟩ := isWhole_of_whole? first
  obtain ⟨isFraction, rfl⟩ := isFraction_of_fraction? second
  obtain ⟨isExponent, rfl⟩ := isExponent_of_exponent? third
  exact ⟨_, .mk signed isWhole isFraction isExponent, by simp, by simp⟩

/-! ## Values -/

theorem exists_gap (text : List Char) : ∃ gap, IsGap gap ∧ text = gap ++ skipSpace text := by
  refine ⟨text.takeWhile isSpace, fun character member => ?_, List.takeWhile_append_dropWhile.symm⟩
  have blank := List.mem_takeWhile_imp member
  simpa [isSpace, or_assoc] using blank

structure Sound (bound : Nat) : Prop where
  value {text rest : List Char} {value : Json} : valueWithin? bound text = some (value, rest) →
    ∃ before written, IsGap before ∧ Spells (.value value) written ∧
      text = before ++ (written ++ rest)
  items {text rest : List Char} {items : List Json} :
    itemsWithin? bound text = some (items, rest) →
      ∃ written, Spells (.items items) written ∧ text = written ++ ']' :: rest
  members {text rest : List Char} {members : List (Option String × Json)} :
    membersWithin? bound text = some (members, rest) →
      ∃ written, Spells (.members members) written ∧ text = written ++ '}' :: rest

variable {bound : Nat} {text rest : List Char}

theorem Sound.slot (sound : Sound bound) {value : Json}
    (read : valueWithin? bound text = some (value, rest)) :
    ∃ written, Spells (.slot value) written ∧ text = written ++ skipSpace rest := by
  obtain ⟨before, written, blank, spells, rfl⟩ := sound.value read
  obtain ⟨after, behind, whole⟩ := exists_gap rest
  refine ⟨_, .slot blank spells behind, ?_⟩
  conv_lhs => rw [whole]
  simp

theorem Sound.value_succ (sound : Sound bound) {value : Json}
    (read : valueWithin? (bound + 1) text = some (value, rest)) :
    ∃ written, Spells (.value value) written ∧ skipSpace text = written ++ rest := by
  rw [valueWithin?] at read
  split at read
  · rename_i body front
    obtain ⟨⟨string, beyond⟩, found, same⟩ := Option.map_eq_some_iff.mp read
    cases same
    obtain ⟨written, isString, whole⟩ := exists_string_of_stringBody? found
    exact ⟨written, .string isString, front.trans whole⟩
  · rename_i inner front
    obtain ⟨gap, blank, whole⟩ := exists_gap inner
    split at read
    · rename_i closing
      cases read
      refine ⟨_, .noItems blank, ?_⟩
      rw [front, whole, closing]
      simp
    · obtain ⟨⟨items, beyond⟩, found, same⟩ := Option.map_eq_some_iff.mp read
      cases same
      obtain ⟨written, spells, rfl⟩ := sound.items found
      exact ⟨_, .array spells, by simp [front]⟩
  · rename_i inner front
    obtain ⟨gap, blank, whole⟩ := exists_gap inner
    split at read
    · rename_i closing
      cases read
      refine ⟨_, .noMembers blank, ?_⟩
      rw [front, whole, closing]
      simp
    · obtain ⟨⟨members, beyond⟩, found, same⟩ := Option.map_eq_some_iff.mp read
      cases same
      obtain ⟨written, spells, rfl⟩ := sound.members found
      exact ⟨_, .object spells, by simp [front]⟩
  · rename_i front
    cases read
    exact ⟨_, .null, front⟩
  · rename_i front
    cases read
    exact ⟨_, .yes, front⟩
  · rename_i front
    cases read
    exact ⟨_, .no, front⟩
  · obtain ⟨numeral, isNumeral, rfl, whole⟩ := isNumeral_of_number? read
    exact ⟨numeral, .number isNumeral, whole⟩

theorem Sound.items_succ (sound : Sound bound) {items : List Json}
    (read : itemsWithin? (bound + 1) text = some (items, rest)) :
    ∃ written, Spells (.items items) written ∧ text = written ++ ']' :: rest := by
  rw [itemsWithin?] at read
  obtain ⟨⟨item, behind⟩, found, after⟩ := Option.bind_eq_some_iff.mp read
  obtain ⟨written, spells, rfl⟩ := sound.slot found
  dsimp only at after
  split at after
  · rename_i closing
    cases after
    exact ⟨written, .lastItem spells, by rw [closing]⟩
  · rename_i others comma
    obtain ⟨⟨later, beyond⟩, further, same⟩ := Option.bind_eq_some_iff.mp after
    cases same
    obtain ⟨more, spellsLater, rfl⟩ := sound.items further
    exact ⟨_, .item spells spellsLater, by simp [comma]⟩
  · cases after

theorem Sound.members_succ (sound : Sound bound) {members : List (Option String × Json)}
    (read : membersWithin? (bound + 1) text = some (members, rest)) :
    ∃ written, Spells (.members members) written ∧ text = written ++ '}' :: rest := by
  rw [membersWithin?] at read
  obtain ⟨before, blank, whole⟩ := exists_gap text
  split at read
  · rename_i body front
    obtain ⟨⟨key, behind⟩, found, read⟩ := Option.bind_eq_some_iff.mp read
    obtain ⟨name, isString, quoted⟩ := exists_string_of_stringBody? found
    obtain ⟨after, apart, spaced⟩ := exists_gap behind
    dsimp only at read
    split at read
    · rename_i slot colon
      obtain ⟨⟨value, beyond⟩, inner, next⟩ := Option.bind_eq_some_iff.mp read
      obtain ⟨written, spells, rfl⟩ := sound.slot inner
      have member := Spells.member blank isString apart spells
      have start : text = before ++ (name ++ (after ++ ':' :: written)) ++ skipSpace beyond := by
        rw [whole, front, quoted, spaced, colon]
        simp
      dsimp only at next
      split at next
      · rename_i closing
        cases next
        exact ⟨_, .lastMember member, by rw [start, closing]⟩
      · rename_i others comma
        obtain ⟨⟨later, last⟩, further, same⟩ := Option.bind_eq_some_iff.mp next
        cases same
        obtain ⟨more, spellsLater, rfl⟩ := sound.members further
        exact ⟨_, .nextMember member spellsLater, by rw [start, comma]; simp⟩
      · cases next
    · cases read
  · cases read

theorem sound (bound : Nat) : Sound bound := by
  induction bound with
  | zero => exact ⟨nofun, nofun, nofun⟩
  | succ bound ih =>
      refine ⟨fun {text _ _} read => ?_, ih.items_succ, ih.members_succ⟩
      obtain ⟨written, spells, whole⟩ := ih.value_succ read
      obtain ⟨before, blank, front⟩ := exists_gap text
      exact ⟨before, written, blank, spells, by rw [← whole, ← front]⟩

/-- A text is read as a value just if it is spelt as JSON that has the value. -/
theorem ofText?_eq_some_iff {text : String} {value : Json} :
    ofText? text = some value ↔ Spells (.slot value) text.toList := by
  refine ⟨fun read => ?_, ofText?_of_spells⟩
  obtain ⟨⟨found, rest⟩, inner, read⟩ := Option.bind_eq_some_iff.mp read
  obtain ⟨ended, same⟩ := Option.ite_none_right_eq_some.mp read
  cases same
  obtain ⟨written, spells, whole⟩ := (sound _).slot inner
  rw [List.isEmpty_iff.mp ended, List.append_nil] at whole
  rwa [whole]

end WhereEditor.Json
