/-!
Decimal numerals. Reading takes ASCII digits only; `index?` also takes one leading plus sign and
refuses what does not fit in 64 bits. Writing pads on the left.
-/

namespace WhereEditor.Text

def numeral (digits : List Char) : Nat :=
  digits.foldl (fun value character => 10 * value + (character.toNat - '0'.toNat)) 0

def natural? (text : List Char) : Option Nat :=
  if text.isEmpty || !text.all Char.isDigit then none else some (numeral text)

def bound64 : Nat := 18446744073709551616

def index? (text : List Char) : Option Nat :=
  let digits := match text with
    | '+' :: rest => rest
    | _ => text
  (natural? digits).filter (· < bound64)

def padStart (width : Nat) (filler : Char) (text : String) : String :=
  String.ofList (List.replicate (width - text.length) filler) ++ text

def padEnd (width : Nat) (text : String) : String :=
  text ++ String.ofList (List.replicate (width - text.length) ' ')

/-- A number with at least `width` characters, zeros standing between its sign and its digits. -/
def zeroPadded (width : Nat) (value : Int) : String :=
  if value < 0 then "-" ++ padStart (width - 1) '0' (toString value.natAbs)
  else padStart width '0' (toString value.natAbs)

end WhereEditor.Text
