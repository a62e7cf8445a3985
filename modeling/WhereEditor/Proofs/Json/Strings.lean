import Mathlib.Data.List.Forall2
import WhereEditor.Json.Read

/-!
Strings of JSON. Main statements: between double quotes every way of writing a text is read as that
text, and what is written has a text just if every half of a surrogate pair stands with its other half.
-/

namespace WhereEditor.Json

/-! ## Grammar -/

def IsHexDigit (value : Nat) (digit : Char) : Prop :=
  value < 16 ∧ (digit = value.digitChar ∨ digit = value.digitChar.toUpper)

def IsHex (code : Nat) (digits : List Char) : Prop :=
  List.Forall₂ IsHexDigit [code / 4096, code / 256 % 16, code / 16 % 16, code % 16] digits

def escapes : List (Char × Char) :=
  [('"', '"'), ('\\', '\\'), ('/', '/'), ('\x08', 'b'), ('\x0c', 'f'), ('\n', 'n'), ('\r', 'r'),
    ('\t', 't')]

inductive IsPiece : Piece → List Char → Prop
  | plain {character : Char} : 0x20 ≤ character.toNat → character ≠ '"' → character ≠ '\\' →
      IsPiece (.char character) [character]
  | mark {character mark : Char} : (character, mark) ∈ escapes →
      IsPiece (.char character) ['\\', mark]
  | code {character : Char} {digits : List Char} : IsHex character.toNat digits →
      IsPiece (.char character) ('\\' :: 'u' :: digits)
  | half {code : Nat} {digits : List Char} : 0xD800 ≤ code → code ≤ 0xDFFF → IsHex code digits →
      IsPiece (.half code) ('\\' :: 'u' :: digits)

inductive IsBody : List Piece → List Char → Prop
  | nil : IsBody [] []
  | cons {piece : Piece} {pieces : List Piece} {text body : List Char} :
      IsPiece piece text → IsBody pieces body → IsBody (piece :: pieces) (text ++ body)

/-- How a text can be written between double quotes. A character beyond 16 bits can be written as a
pair of halves. -/
inductive Quotes : List Char → List Char → Prop
  | nil : Quotes [] []
  | one {character : Char} {rest text body : List Char} :
      IsPiece (.char character) text → Quotes rest body → Quotes (character :: rest) (text ++ body)
  | pair {character : Char} {rest high low body : List Char} : 0x10000 ≤ character.toNat →
      IsPiece (.half (0xD800 + (character.toNat - 0x10000) / 0x400)) high →
      IsPiece (.half (0xDC00 + (character.toNat - 0x10000) % 0x400)) low →
      Quotes rest body → Quotes (character :: rest) (high ++ (low ++ body))

/-- A string with its double quotes; it has no text if it cannot be the writing of one. -/
inductive IsString : Option String → List Char → Prop
  | text {text : String} {body : List Char} : Quotes text.toList body →
      IsString (some text) ('"' :: body ++ ['"'])
  | loose {pieces : List Piece} {body : List Char} : IsBody pieces body →
      (∀ text, ¬Quotes text body) → IsString none ('"' :: body ++ ['"'])

/-! ## Reading pieces -/

theorem hexValue?_of_isHexDigit {value : Nat} {digit : Char} (hex : IsHexDigit value digit) :
    hexValue? digit = some value := by
  have table : ∀ value < 16, hexValue? value.digitChar = some value ∧
      hexValue? value.digitChar.toUpper = some value := by decide
  obtain ⟨small, rfl | rfl⟩ := hex
  · exact (table value small).1
  · exact (table value small).2

theorem IsHex.exists_digits {code : Nat} {digits : List Char} (hex : IsHex code digits) :
    ∃ a b c d, digits = [a, b, c, d] ∧ [a, b, c, d].mapM hexValue? =
      some [code / 4096, code / 256 % 16, code / 16 % 16, code % 16] := by
  cases hex with | cons first others =>
  cases others with | cons second others =>
  cases others with | cons third others =>
  cases others with | cons fourth others =>
  cases others with | nil =>
  refine ⟨_, _, _, _, rfl, ?_⟩
  simp [hexValue?_of_isHexDigit first, hexValue?_of_isHexDigit second,
    hexValue?_of_isHexDigit third, hexValue?_of_isHexDigit fourth]

def codePiece (code : Nat) : Piece :=
  if 0xD800 ≤ code ∧ code ≤ 0xDFFF then .half code else .char (Char.ofNat code)

theorem pieces?_hex {code : Nat} {digits : List Char} (hex : IsHex code digits) (rest : List Char) :
    pieces? ('\\' :: 'u' :: digits ++ rest) =
      (pieces? rest).map fun (pieces, beyond) => (codePiece code :: pieces, beyond) := by
  obtain ⟨a, b, c, d, rfl, values⟩ := hex.exists_digits
  have total : [code / 4096, code / 256 % 16, code / 16 % 16, code % 16].foldl (16 * · + ·) 0 =
      code := by
    simp only [List.foldl_cons, List.foldl_nil]
    omega
  have named : hexPiece? [a, b, c, d] = some (codePiece code) := by
    simp only [hexPiece?, values, bind, Option.bind_some, total, codePiece]
    split <;> rfl
  simp only [List.cons_append, List.nil_append, pieces?, named, bind, Option.bind_some]
  cases pieces? rest <;> rfl

theorem toNat_bounds (character : Char) :
    character.toNat < 55296 ∨ 57343 < character.toNat ∧ character.toNat < 1114112 :=
  character.valid

theorem codePiece_toNat (character : Char) : codePiece character.toNat = .char character := by
  have valid := toNat_bounds character
  have whole : ¬(0xD800 ≤ character.toNat ∧ character.toNat ≤ 0xDFFF) := by omega
  rw [codePiece, if_neg whole, Char.ofNat_toNat]

theorem escaped?_of_mem {character mark : Char} (escape : (character, mark) ∈ escapes) :
    escaped? mark = some character ∧ mark ≠ 'u' := by
  have table : ∀ entry ∈ escapes, escaped? entry.2 = some entry.1 ∧ entry.2 ≠ 'u' := by decide
  exact table _ escape

theorem pieces?_piece {piece : Piece} {text : List Char} (written : IsPiece piece text)
    (rest : List Char) :
    pieces? (text ++ rest) =
      (pieces? rest).map fun (pieces, beyond) => (piece :: pieces, beyond) := by
  cases written with
  | @plain character visible _ backslash =>
      have bare : ¬character.toNat < 0x20 := Nat.not_lt.mpr visible
      simp [pieces?, backslash, bare]
  | @mark character mark escape =>
      obtain ⟨named, other⟩ := escaped?_of_mem escape
      simp [pieces?, named, other]
      cases pieces? rest <;> rfl
  | @code character digits hex => rw [pieces?_hex hex, codePiece_toNat]
  | @half code digits least most hex =>
      rw [pieces?_hex hex, codePiece, if_pos ⟨least, most⟩]

theorem pieces?_body {pieces : List Piece} {body : List Char} (written : IsBody pieces body)
    (rest : List Char) : pieces? (body ++ '"' :: rest) = some (pieces, rest) := by
  induction written with
  | nil => simp [pieces?]
  | cons piece others ih => rw [List.append_assoc, pieces?_piece piece, ih, Option.map_some]

/-! ## Texts of strings -/

theorem Quotes.exists_pieces {text body : List Char} (written : Quotes text body) :
    ∃ pieces, IsBody pieces body ∧ assemble? pieces = some text := by
  induction written with
  | nil => exact ⟨[], .nil, rfl⟩
  | one piece _ ih =>
      obtain ⟨pieces, inner, whole⟩ := ih
      exact ⟨_, .cons piece inner, by rw [assemble?, whole, Option.map_some]⟩
  | @pair character _ _ _ _ beyond high low _ ih =>
      obtain ⟨pieces, inner, whole⟩ := ih
      refine ⟨_, .cons high (.cons low inner), ?_⟩
      have valid := toNat_bounds character
      have halves : 0xD800 + (character.toNat - 0x10000) / 0x400 < 0xDC00 ∧
          0xDC00 ≤ 0xDC00 + (character.toNat - 0x10000) % 0x400 := by omega
      have total : 0x10000 + (0xD800 + (character.toNat - 0x10000) / 0x400 - 0xD800) * 0x400 +
          (0xDC00 + (character.toNat - 0x10000) % 0x400 - 0xDC00) = character.toNat := by omega
      rw [assemble?, if_pos halves, whole, Option.map_some, total, Char.ofNat_toNat]

theorem IsPiece.half_bounds {code : Nat} {text : List Char} (piece : IsPiece (.half code) text) :
    0xD800 ≤ code ∧ code ≤ 0xDFFF := by
  cases piece with | half least most => exact ⟨least, most⟩

theorem toNat_ofNat {code : Nat} (valid : code.isValidChar) : (Char.ofNat code).toNat = code := by
  rw [Char.ofNat, dif_pos valid]
  rfl

theorem IsBody.quotes {pieces : List Piece} {text body : List Char} (written : IsBody pieces body)
    (whole : assemble? pieces = some text) : Quotes text body := by
  fun_induction assemble? pieces generalizing text body with
  | case1 =>
      cases written
      cases whole
      exact .nil
  | case2 character pieces ih =>
      cases written with | cons piece inner =>
      obtain ⟨rest, assembled, rfl⟩ := Option.map_eq_some_iff.mp whole
      exact .one piece (ih inner assembled)
  | case3 high low pieces halves ih =>
      cases written with | cons first others =>
      cases others with | cons second inner =>
      obtain ⟨rest, assembled, rfl⟩ := Option.map_eq_some_iff.mp whole
      have least := first.half_bounds
      have most := second.half_bounds
      have valid : (0x10000 + (high - 0xD800) * 0x400 + (low - 0xDC00)).isValidChar :=
        .inr (by omega)
      have code := toNat_ofNat valid
      have front : 0xD800 + (0x10000 + (high - 0xD800) * 0x400 + (low - 0xDC00) - 0x10000) / 0x400 =
          high := by omega
      have back : 0xDC00 + (0x10000 + (high - 0xD800) * 0x400 + (low - 0xDC00) - 0x10000) % 0x400 =
          low := by omega
      refine .pair ?_ ?_ ?_ (ih inner assembled)
      · rw [code]
        omega
      · rwa [code, front]
      · rwa [code, back]
  | case4 => cases whole
  | case5 => cases whole

theorem IsString.exists_body {text : Option String} {written : List Char}
    (string : IsString text written) (rest : List Char) :
    ∃ body, written ++ rest = '"' :: body ∧ stringBody? body = some (text, rest) := by
  cases string with
  | @text text body quotes =>
      obtain ⟨pieces, inner, whole⟩ := quotes.exists_pieces
      refine ⟨body ++ '"' :: rest, by simp, ?_⟩
      simp only [stringBody?, pieces?_body inner, whole, Option.map_some, String.ofList_toList]
  | @loose pieces body inner unwritten =>
      have apart : assemble? pieces = none := by
        cases whole : assemble? pieces with
        | none => rfl
        | some text => exact absurd (inner.quotes whole) (unwritten text)
      refine ⟨body ++ '"' :: rest, by simp, ?_⟩
      simp only [stringBody?, pieces?_body inner, apart, Option.map_some, Option.map_none]

/-! ## Writing -/

theorem isHexDigit_hexDigit {value : Nat} (small : value < 16) :
    IsHexDigit value (hexDigit value) := by
  rw [hexDigit, Nat.toDigits_of_lt_base small]
  exact ⟨small, .inl rfl⟩

theorem isPiece_escape (character : Char) : IsPiece (.char character) (escape character) := by
  unfold escape
  split
  · rename_i mark found
    obtain ⟨before, after, split, _⟩ := List.lookup_eq_some_iff.mp found
    have member : (character, mark) ∈ marks := by simp [split]
    have table : ∀ entry ∈ marks, entry ∈ escapes := by decide
    exact .mark (table _ member)
  · rename_i absent
    have unmarked := List.lookup_eq_none_iff.mp absent
    split
    · rename_i control
      have first : character.toNat / 4096 = 0 := by omega
      have second : character.toNat / 256 % 16 = 0 := by omega
      have third : character.toNat / 16 % 16 = character.toNat / 16 := by omega
      have zero : IsHexDigit 0 '0' := ⟨by decide, .inl rfl⟩
      have small : character.toNat / 16 < 16 := by omega
      have high := isHexDigit_hexDigit small
      have low := isHexDigit_hexDigit (Nat.mod_lt character.toNat (by decide : 0 < 16))
      refine .code ?_
      rw [IsHex, first, second, third]
      exact .cons zero (.cons zero (.cons high (.cons low .nil)))
    · rename_i visible
      have quote := unmarked ('"', '"') (by decide)
      have backslash := unmarked ('\\', '\\') (by decide)
      exact .plain (Nat.not_lt.mp visible) (by simpa using quote) (by simpa using backslash)

theorem quotes_escape (text : List Char) : Quotes text (text.flatMap escape) := by
  induction text with
  | nil => exact .nil
  | cons character text ih => exact .one (isPiece_escape character) ih

theorem isString_quote (text : String) : IsString (some text) (quote text).toList := by
  rw [quote, String.toList_ofList]
  exact .text (quotes_escape text.toList)

end WhereEditor.Json
