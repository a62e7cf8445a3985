import WhereEditor.Text.Cluster

/-!
Lines in which backspaces were typed. A backspace takes back the cluster before it. The length of a
cluster is kept in a single byte, so of a cluster of 256 bytes or more only the excess over a
multiple of 256 is taken back, and where this would cut a character in two there is no line.
-/

namespace WhereEditor.Text.Backspace

def mark : Char := '\x08'

def recordedLength (cluster : List Char) : Nat :=
  cluster.foldl (fun length character => length + character.utf8Size) 0 % 256

/-- Takes bytes off the end of a text, given with its last character first. -/
def dropBytes? : Nat → List Char → Option (List Char)
  | _, [] => some []
  | 0, kept => some kept
  | count, character :: kept =>
      if character.utf8Size ≤ count then dropBytes? (count - character.utf8Size) kept else none

/-- What is left of a line: `kept` is the text so far, last character first, and `lengths` holds
the lengths of its clusters, the last one first. -/
def settle? (kept : List Char) (lengths : List Nat) : List (List Char) → Option (List Char)
  | [] => some kept.reverse
  | cluster :: later =>
      if cluster = [mark] then
        match lengths with
        | [] => settle? kept [] later
        | length :: lengths => (dropBytes? length kept).bind fun kept => settle? kept lengths later
      else settle? (cluster.reverse ++ kept) (recordedLength cluster :: lengths) later

def resolve? (line : List Char) : Option (List Char) :=
  if mark ∈ line then settle? [] [] (Cluster.clusters line) else some line

theorem resolve?_of_not_mem {line : List Char} (absent : mark ∉ line) :
    resolve? line = some line :=
  if_neg absent

end WhereEditor.Text.Backspace
