import WhereEditor.Time.Reading

/-!
Dates as mail headers write them (RFC 2822), such as `Wed, 31 Jan 2024 08:05:59 +0200 (noon)`.
Names of days, months and zones are read without regard to ASCII case.
-/

namespace WhereEditor.Time.Mail

open Text

def dayNames : List String := ["mon", "tue", "wed", "thu", "fri", "sat", "sun"]

def monthNames : List String :=
  ["jan", "feb", "mar", "apr", "may", "jun", "jul", "aug", "sep", "oct", "nov", "dec"]

/-- Hours east of UTC. -/
def zones : List (String × Int) :=
  [("gmt", 0), ("ut", 0), ("z", 0), ("edt", -4), ("est", -5), ("cdt", -5), ("cst", -6), ("mdt", -6),
    ("mst", -7), ("pdt", -7), ("pst", -8)]

def name? (names : List String) (text : List Char) : Option (Nat × List Char) :=
  let name := String.ofList ((text.take 3).map Char.toLower)
  (names.findIdx? (· == name)).map fun place => (place, text.drop 3)

def blanks? : List Char → Option (List Char)
  | [] => none
  | character :: rest => if isBlank character then some (trimStart rest) else none

/-- Two digits mean a year from 1950 to 2049, three digits count from 1900. -/
def year? (text : List Char) : Option (Nat × List Char) := do
  let (value, rest) ← longNumber? 2 text
  let count := text.length - rest.length
  let century := if count = 2 then (if value < 50 then 2000 else 1900)
    else if count = 3 then 1900 else 0
  some (value + century, rest)

/-- A named zone, a zone of one letter other than J, which says nothing, or a sign and four digits. -/
def zone? (text : List Char) : Option (Int × List Char) :=
  let letters := text.takeWhile Char.isAlpha
  if letters.isEmpty then
    match text with
    | '+' :: rest => clockOffset? false rest
    | '-' :: rest => (clockOffset? false rest).map fun (east, beyond) => (-east, beyond)
    | _ => none
  else
    let name := letters.map Char.toLower
    let rest := text.drop letters.length
    match zones.lookup (String.ofList name) with
    | some hours => some (hours * 3600, rest)
    | none => if name.length = 1 ∧ name ≠ ['j'] then some (0, rest) else none

/-- What follows the parenthesis that closes a comment `depth` parentheses deep. A backslash takes
away the meaning of the character after it. -/
def afterComment? : (depth : Nat) → List Char → Option (List Char)
  | _, [] => none
  | _, ['\\'] => none
  | depth, '\\' :: _ :: rest => afterComment? depth rest
  | depth, '(' :: rest => afterComment? (depth + 1) rest
  | depth, ')' :: rest => if depth ≤ 1 then some rest else afterComment? (depth - 1) rest
  | depth, _ :: rest => afterComment? depth rest

/-- Whether nothing but comments is left. Each comment takes up text, so there are no more comments
than characters. -/
def onlyComments : (bound : Nat) → List Char → Bool
  | 0, text => text.isEmpty
  | bound + 1, text => text.isEmpty || match trimStart text with
    | '(' :: rest => match afterComment? 1 rest with
      | some beyond => onlyComments bound beyond
      | none => false
    | _ => false

def read? (text : List Char) : Option Reading := do
  let (weekday, rest) ← match name? dayNames text with
    | some (place, rest) => (expect? ',' rest).map fun rest => (some place, rest)
    | none => some (none, text)
  let (day, rest) ← number? 1 2 (trimStart rest)
  let rest ← blanks? rest
  let (month, rest) ← name? monthNames rest
  let rest ← blanks? rest
  let (year, rest) ← year? rest
  let rest ← blanks? rest
  let (hour, rest) ← number? 2 2 rest
  let rest ← expect? ':' (trimStart rest)
  let (minute, rest) ← number? 2 2 (trimStart rest)
  let (second, rest) ← match expect? ':' (trimStart rest) with
    | some rest => number? 2 2 rest
    | none => some (0, rest)
  let rest ← blanks? rest
  let (offset, rest) ← zone? rest
  if onlyComments rest.length rest then
    some { year, month := month + 1, day, hour, minute, second, offset := some offset, weekday }
  else none

def instant? (text : List Char) : Option Instant := (read? text).bind Reading.instant?

end WhereEditor.Time.Mail
