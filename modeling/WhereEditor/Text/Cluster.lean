import WhereEditor.Text.ClusterTables

/-!
Extended grapheme clusters (Unicode Standard Annex 29): the stretches of text that a reader takes
for one character. Whether two neighbours belong together depends on their kinds and on a little of
what came before: an emoji that goes on, a conjunct of consonants, the number of flag letters.
Main statement: the clusters of a text, put together, are the text.
-/

namespace WhereEditor.Text.Cluster

inductive Kind where
  | carriageReturn
  | lineFeed
  | control
  | extend
  | zeroWidthJoiner
  | spacing
  /-- Belongs to what follows. -/
  | lead
  | regional
  | initial
  | vowel
  | final
  /-- A Hangul syllable without a final consonant. -/
  | openSyllable
  | closedSyllable
  | consonant
  | pictograph
  | other
  deriving DecidableEq

namespace Kind

def ofUnlisted (character : Char) : Kind :=
  let code := character.toNat
  if 0x1F1E6 ≤ code ∧ code ≤ 0x1F1FF then regional
  else if 0xAC00 ≤ code ∧ code ≤ 0xD7A3 then
    if (code - 0xAC00) % 28 = 0 then openSyllable else closedSyllable
  else other

def tables : List (Kind × Blocks) :=
  [(extend, extendBlocks), (spacing, spacingBlocks), (consonant, consonantBlocks),
    (pictograph, pictographBlocks), (initial, initialBlocks), (vowel, vowelBlocks),
    (final, finalBlocks), (lead, leadBlocks), (control, controlBlocks)]

def ofChar (character : Char) : Kind :=
  if character = '\r' then carriageReturn
  else if character = '\n' then lineFeed
  else if character = '\u200d' then zeroWidthJoiner
  else match tables.find? (·.2.has character) with
    | some (kind, _) => kind
    | none => ofUnlisted character

end Kind

inductive Conjunct where
  | none
  | begun
  /-- A linker stands after its last consonant. -/
  | linked
  deriving DecidableEq

structure State where
  kind : Kind
  conjunct : Conjunct
  inPictograph : Bool
  /-- A joiner after a pictograph and its marks. -/
  pictographJoined : Bool
  /-- The run of flag letters that ends here is of odd length. -/
  oddRegional : Bool

namespace State

def start : State := ⟨.control, .none, false, false, false⟩

def nextConjunct (state : State) (character : Char) (kind : Kind) : Conjunct :=
  if kind = .consonant then .begun
  else if state.conjunct = .none then .none
  else if linkerBlocks.has character then .linked
  else if kind = .zeroWidthJoiner ∨ kind = .extend ∧ character ≠ '\u200c' then state.conjunct
  else .none

def next (state : State) (character : Char) : State :=
  let kind := Kind.ofChar character
  { kind
    conjunct := state.nextConjunct character kind
    inPictograph := kind == .pictograph || kind == .extend && state.inPictograph
    pictographJoined := kind == .zeroWidthJoiner && state.inPictograph
    oddRegional := kind == .regional && !state.oddRegional }

def joins (state : State) (kind : Kind) : Bool :=
  match state.kind, kind with
  | .carriageReturn, .lineFeed => true
  | .carriageReturn, _ | .lineFeed, _ | .control, _ => false
  | _, .carriageReturn | _, .lineFeed | _, .control => false
  | .initial, .initial | .initial, .vowel | .initial, .openSyllable
  | .initial, .closedSyllable => true
  | .openSyllable, .vowel | .openSyllable, .final | .vowel, .vowel | .vowel, .final => true
  | .closedSyllable, .final | .final, .final => true
  | _, .extend | _, .zeroWidthJoiner | _, .spacing => true
  | .lead, _ => true
  | _, .consonant => state.conjunct == .linked
  | _, .pictograph => state.pictographJoined
  | _, .regional => state.oddRegional
  | _, _ => false

end State

def split (state : State) (cluster : List Char) : List Char → List (List Char)
  | [] => if cluster.isEmpty then [] else [cluster]
  | character :: rest =>
      let next := state.next character
      if cluster.isEmpty || state.joins next.kind then
        split next (cluster ++ [character]) rest
      else cluster :: split next [character] rest

def clusters (text : List Char) : List (List Char) := split .start [] text

theorem flatten_split (state : State) (cluster text : List Char) :
    (split state cluster text).flatten = cluster ++ text := by
  induction text generalizing state cluster with
  | nil =>
      unfold split
      split
      · next empty => simp [List.isEmpty_iff.mp empty]
      · simp
  | cons character rest ih =>
      unfold split
      dsimp only
      split
      · rw [ih, List.append_assoc, List.singleton_append]
      · rw [List.flatten_cons, ih, List.singleton_append]

theorem flatten_clusters (text : List Char) : (clusters text).flatten = text :=
  flatten_split .start [] text

end WhereEditor.Text.Cluster
