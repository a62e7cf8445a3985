import WhereEditor.Time.Reading

/-!
Date texts with a fixed layout: a list of elements that are read one after the other and have to
use up the whole text. The layouts are the RFC 3339 timestamp and the plain layouts without an offset.
-/

namespace WhereEditor.Time

inductive Component where
  | month
  | day
  | hour
  | minute
  | second

def Component.put (component : Component) (value : Nat) (reading : Reading) : Reading :=
  match component with
  | month => { reading with month := value }
  | day => { reading with day := value }
  | hour => { reading with hour := value }
  | minute => { reading with minute := value }
  | second => { reading with second := value }

inductive Element where
  | fullYear
  /-- Exactly two digits. -/
  | full (component : Component)
  /-- A year after any blanks, signed or of up to four digits. -/
  | year
  /-- One or two digits after any blanks. -/
  | short (component : Component)
  | oneOf (marks : List Char)
  | gap
  | fraction
  | offset

namespace Element

open Text

def mark (character : Char) : Element := oneOf [character]

/-- `Z`, or a sign with hours and minutes; the minus sign proper counts as a hyphen. -/
def readOffset? : List Char → Option (Int × List Char)
  | [] => none
  | sign :: rest =>
      if sign = 'Z' ∨ sign = 'z' then some (0, rest)
      else if sign = '+' then clockOffset? true rest
      else if sign = '-' ∨ sign = '\u2212' then
        (clockOffset? true rest).map fun (east, beyond) => (-east, beyond)
      else none

def read? (element : Element) (reading : Reading) (text : List Char) :
    Option (Reading × List Char) :=
  match element with
  | fullYear => (number? 4 4 text).map fun (value, rest) => ({ reading with year := value }, rest)
  | full component => (number? 2 2 text).map fun (value, rest) => (component.put value reading, rest)
  | year => (year? (trimStart text)).map fun (value, rest) => ({ reading with year := value }, rest)
  | short component =>
      (number? 1 2 (trimStart text)).map fun (value, rest) => (component.put value reading, rest)
  | oneOf marks => match text with
    | character :: rest => if character ∈ marks then some (reading, rest) else none
    | [] => none
  | gap => some (reading, trimStart text)
  | fraction =>
      (fraction? text).map fun (value, rest) => ({ reading with fraction := value }, rest)
  | offset =>
      (readOffset? text).map fun (value, rest) => ({ reading with offset := some value }, rest)

end Element

abbrev Layout := List Element

namespace Layout

open Element

def readFrom? : Layout → Reading → List Char → Option Reading
  | [], reading, text => if text.isEmpty then some reading else none
  | element :: later, reading, text =>
      (element.read? reading text).bind fun (next, rest) => readFrom? later next rest

def instant? (layout : Layout) (text : List Char) : Option Instant :=
  (layout.readFrom? {} text).bind Reading.instant?

def stamp : Layout :=
  [fullYear, mark '-', full .month, mark '-', full .day, oneOf ['T', 't', ' '],
    full .hour, mark ':', full .minute, mark ':', full .second, fraction, offset]

def plainDate : Layout := [year, mark '-', short .month, mark '-', short .day]

def plainMinute : Layout := [short .hour, mark ':', short .minute]

def plainSecond : Layout := plainMinute ++ [mark ':', short .second, fraction]

def plain : List Layout :=
  [plainDate ++ [mark 'T'] ++ plainSecond,
    plainDate ++ [mark 'T'] ++ plainMinute,
    plainDate ++ [gap] ++ plainSecond,
    plainDate ++ [gap] ++ plainMinute,
    plainDate]

end Layout

end WhereEditor.Time
