import WhereEditor.Json.Basic

/-!
Reading JSON as the standard has it: four kinds of blank, no leading zeros, no trailing commas, no
bare control characters. Numbers of any size and values nested to any depth are read.
-/

namespace WhereEditor.Json

def isSpace (character : Char) : Bool :=
  character == ' ' || character == '\t' || character == '\n' || character == '\r'

def skipSpace (text : List Char) : List Char := text.dropWhile isSpace

/-! ## Strings -/

inductive Piece where
  | char (character : Char)
  /-- Half of a surrogate pair. -/
  | half (code : Nat)

def hexValue? (digit : Char) : Option Nat :=
  if digit.isDigit then some (digit.toNat - '0'.toNat)
  else if 'a' ≤ digit ∧ digit ≤ 'f' then some (digit.toNat - 'a'.toNat + 10)
  else if 'A' ≤ digit ∧ digit ≤ 'F' then some (digit.toNat - 'A'.toNat + 10)
  else none

def hexPiece? (digits : List Char) : Option Piece := do
  let values ← digits.mapM hexValue?
  let code := values.foldl (16 * · + ·) 0
  if 0xD800 ≤ code ∧ code ≤ 0xDFFF then some (.half code) else some (.char (Char.ofNat code))

def escaped? (mark : Char) : Option Char :=
  [('"', '"'), ('\\', '\\'), ('/', '/'), ('b', '\x08'), ('f', '\x0c'), ('n', '\n'), ('r', '\r'),
    ('t', '\t')].lookup mark

def pieces? : List Char → Option (List Piece × List Char)
  | [] => none
  | '"' :: rest => some ([], rest)
  | '\\' :: 'u' :: a :: b :: c :: d :: rest => do
      let piece ← hexPiece? [a, b, c, d]
      let (pieces, beyond) ← pieces? rest
      some (piece :: pieces, beyond)
  | '\\' :: mark :: rest => do
      let character ← escaped? mark
      let (pieces, beyond) ← pieces? rest
      some (.char character :: pieces, beyond)
  | character :: rest =>
      if character.toNat < 0x20 then none
      else (pieces? rest).map fun (pieces, beyond) => (.char character :: pieces, beyond)

def assemble? : List Piece → Option (List Char)
  | [] => some []
  | .char character :: rest => (assemble? rest).map (character :: ·)
  | .half high :: .half low :: rest =>
      if high < 0xDC00 ∧ 0xDC00 ≤ low then
        (assemble? rest).map (Char.ofNat (0x10000 + (high - 0xD800) * 0x400 + (low - 0xDC00)) :: ·)
      else none
  | .half _ :: _ => none

def stringBody? (text : List Char) : Option (Option String × List Char) :=
  (pieces? text).map fun (pieces, rest) => ((assemble? pieces).map String.ofList, rest)

/-! ## Numbers -/

def digits (text : List Char) : List Char × List Char := text.span Char.isDigit

def digitsAfter? (mark : List Char) (text : List Char) : Option (List Char × List Char) :=
  let (run, rest) := digits text
  if run.isEmpty then none else some (mark ++ run, rest)

def whole? : List Char → Option (List Char × List Char)
  | '0' :: rest => some (['0'], rest)
  | text => digitsAfter? [] text

def fraction? : List Char → Option (List Char × List Char)
  | '.' :: rest => digitsAfter? ['.'] rest
  | text => some ([], text)

def exponent? : List Char → Option (List Char × List Char)
  | mark :: rest =>
      if mark = 'e' ∨ mark = 'E' then
        match rest with
        | '+' :: rest => digitsAfter? [mark, '+'] rest
        | '-' :: rest => digitsAfter? [mark, '-'] rest
        | _ => digitsAfter? [mark] rest
      else some ([], mark :: rest)
  | [] => some ([], [])

def number? (text : List Char) : Option (Json × List Char) := do
  let (sign, rest) := match text with
    | '-' :: rest => (['-'], rest)
    | _ => ([], text)
  let (whole, rest) ← whole? rest
  let (fraction, rest) ← fraction? rest
  let (exponent, rest) ← exponent? rest
  some (number (String.ofList (sign ++ whole ++ fraction ++ exponent)), rest)

/-! ## Values -/

mutual

/-- A value after any blanks, and what follows it. The bound is on the calls within each other. -/
def valueWithin? : (bound : Nat) → List Char → Option (Json × List Char)
  | 0, _ => none
  | bound + 1, text => match skipSpace text with
    | '"' :: rest => (stringBody? rest).map fun (text, beyond) => (string text, beyond)
    | '[' :: rest => match skipSpace rest with
      | ']' :: beyond => some (array [], beyond)
      | _ => (itemsWithin? bound rest).map fun (items, beyond) => (array items, beyond)
    | '{' :: rest => match skipSpace rest with
      | '}' :: beyond => some (object [], beyond)
      | _ => (membersWithin? bound rest).map fun (members, beyond) => (object members, beyond)
    | 'n' :: 'u' :: 'l' :: 'l' :: rest => some (null, rest)
    | 't' :: 'r' :: 'u' :: 'e' :: rest => some (bool true, rest)
    | 'f' :: 'a' :: 'l' :: 's' :: 'e' :: rest => some (bool false, rest)
    | other => number? other

def itemsWithin? : (bound : Nat) → List Char → Option (List Json × List Char)
  | 0, _ => none
  | bound + 1, text => do
      let (item, rest) ← valueWithin? bound text
      match skipSpace rest with
      | ']' :: beyond => some ([item], beyond)
      | ',' :: rest => do
          let (items, beyond) ← itemsWithin? bound rest
          some (item :: items, beyond)
      | _ => none

def membersWithin? : (bound : Nat) → List Char → Option (List (Option String × Json) × List Char)
  | 0, _ => none
  | bound + 1, text => match skipSpace text with
    | '"' :: rest => do
        let (key, rest) ← stringBody? rest
        match skipSpace rest with
        | ':' :: rest => do
            let (value, rest) ← valueWithin? bound rest
            match skipSpace rest with
            | '}' :: beyond => some ([(key, value)], beyond)
            | ',' :: rest => do
                let (members, beyond) ← membersWithin? bound rest
                some ((key, value) :: members, beyond)
            | _ => none
        | _ => none
    | _ => none

end

/-- The value that a text holds, with nothing but blanks around it. Every two calls take up a
character at least. -/
def ofText? (text : String) : Option Json := do
  let characters := text.toList
  let (value, rest) ← valueWithin? (2 * characters.length + 2) characters
  if (skipSpace rest).isEmpty then some value else none

end WhereEditor.Json
