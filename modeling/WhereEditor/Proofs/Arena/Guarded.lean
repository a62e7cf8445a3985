import WhereEditor.Proofs.Arena.Basic
import WhereEditor.Proofs.Tree.Scan

/-!
The edits of the slots with their limits: every index and every range that is used as it stands is
checked, every difference is taken only where it is not negative, and every walk is counted. What goes
beyond a limit is a fault.
-/

namespace WhereEditor

inductive Fault where
  /-- An index or a range goes beyond the end of a list. -/
  | range
  | underflow
  /-- A walk takes more steps than it may. -/
  | endless
  deriving DecidableEq

namespace Arena.Guarded

/-! ## Numbers and lists -/

def difference (whole part : Nat) : Except Fault Nat :=
  if part ≤ whole then .ok (whole - part) else .error .underflow

def insertIdx (index : Nat) (new : NodeId) (items : List NodeId) : Except Fault (List NodeId) :=
  if index ≤ items.length then .ok (items.insertIdx index new) else .error .range

def set (index : Nat) (new : NodeId) (items : List NodeId) : Except Fault (List NodeId) :=
  if index < items.length then .ok (items.set index new) else .error .range

def eraseIdx (index : Nat) (items : List NodeId) : Except Fault (List NodeId) :=
  if index < items.length then .ok (items.eraseIdx index) else .error .range

def splice (first last : Nat) (new items : List NodeId) : Except Fault (List NodeId) :=
  if first ≤ last + 1 ∧ last < items.length then
    .ok (items.take first ++ new ++ items.drop (last + 1))
  else .error .range

/-! ## Slots -/

def vacate (arena : Arena) (id : NodeId) : Except Fault Arena :=
  if id < arena.next then .ok (arena.vacate id) else .error .range

def editItems (arena : Arena) (id : NodeId) (edit : List NodeId → Except Fault (List NodeId)) :
    Except Fault Arena :=
  match arena.items? id with
  | some items => (edit items).map fun edited => arena.editItems id fun _ => edited
  | none => .ok arena

/-! ## Clauses -/

def insertAt (arena : Arena) (parent : NodeId) (index : Nat) (body : Clause) : Except Fault Arena := do
  let pushed := arena.push { parent, content := .clause body }
  let fresh ← difference pushed.next 1
  editItems pushed parent (insertIdx index fresh)

def insertBefore (arena : Arena) (group : NodeId) (anchor : Option NodeId) (body : Clause) :
    Except Fault Arena :=
  match anchor.bind arena.place? with
  | some (parent, index) => insertAt arena parent index body
  | none =>
      let group := if arena.isGroup group then group else NodeId.root
      insertAt arena group (arena.children group).length body

def insertAfter (arena : Arena) (anchor : NodeId) (body : Clause) : Except Fault Arena :=
  match (arena.place? anchor).bind fun (parent, index) => (arena.children parent)[index + 1]? with
  | some next => insertBefore arena NodeId.root (some next) body
  | none => insertBefore arena ((arena.parent? anchor).getD NodeId.root) none body

/-! ## Nodes that go -/

def dispose : Nat → Arena → NodeId → Except Fault Arena
  | 0, _, _ => .error .endless
  | bound + 1, arena, id => match arena.slot? id with
    | some slot => (slot.items?.getD []).foldlM (dispose bound) (arena.vacate id)
    | none => .ok arena

def dissolve : Nat → Arena → NodeId → Except Fault Arena
  | 0, _, _ => .error .endless
  | bound + 1, arena, group =>
      if group = NodeId.root ∨ 1 < (arena.children group).length then .ok arena
      else match arena.place? group with
        | none => .ok arena
        | some (parent, index) => do
            let vacated ← vacate arena group
            match (arena.children group).head? with
            | some orphan => editItems (vacated.hang parent orphan) parent (set index orphan)
            | none => do
                let dropped ← editItems vacated parent (eraseIdx index)
                dissolve bound dropped parent

def delete (bound : Nat) (arena : Arena) (id : NodeId) : Except Fault Arena :=
  match if id = NodeId.root then none else arena.parent? id with
  | none => .ok arena
  | some parent => do
      let disposed ← dispose bound (arena.editItems parent (·.filter (· != id))) id
      dissolve bound disposed parent

def clear (bound : Nat) (arena : Arena) : Except Fault Arena :=
  (arena.children NodeId.root).foldlM (dispose bound) (arena.editItems NodeId.root fun _ => [])

/-! ## Marks -/

def selection (arena : Arena) : Nat → NodeId → Except Fault Selection
  | 0, _ => .error .endless
  | bound + 1, id => match arena.slot? id with
    | some ⟨_, .clause body⟩ => .ok (if body.selected then .all else .none)
    | some ⟨_, .group items⟩ => (items.mapM (selection arena bound)).map .ofItems
    | none => .ok .none

def note (scan : Scan) (index : Nat) (item : Selection) : Except Fault Scan := do
  let first := if scan.first.isNone && scan.last.isNone && item == .all then some index
    else scan.first
  let last ← if first.isSome && scan.last.isNone && item != .all then
      (difference index 1).map some
    else .ok scan.last
  let count := if first.isSome && last.isNone then scan.count + 1 else scan.count
  return { scan with first, last, count }

def along (mark : NodeId → Except Fault Selection) (scan : Scan) (index : Nat) :
    List NodeId → Except Fault Scan
  | [] => .ok scan
  | id :: later => do
      match ← mark id with
      | .partly => .ok { scan with gap := true }
      | item => do
          let noted ← note scan index item
          if noted.first.isSome && noted.last.isSome && item != .none then
            .ok { noted with gap := true }
          else along mark noted (index + 1) later

structure Found where
  canGroup : Bool
  first : Option Nat
  last : Option Nat

def found (scan : Scan) (length : Nat) : Found where
  canGroup := scan.first.isSome && !scan.gap && 1 < scan.count
  first := scan.first
  last := if !scan.gap && scan.last.isNone then (if length = 0 then none else some (length - 1))
    else scan.last

def selectedRun (bound : Nat) (arena : Arena) (group : NodeId) : Except Fault Found :=
  let items := arena.children group
  (along (selection arena bound) {} 0 items).map (found · items.length)

def unselect : Nat → Arena → NodeId → Except Fault Arena
  | 0, _, _ => .error .endless
  | bound + 1, arena, group => (arena.children group).foldlM (fun arena item =>
      if arena.isGroup item then unselect bound arena item
      else .ok (arena.modify item Slot.unmark)) arena

/-! ## Groups -/

def groupSelected (bound : Nat) (arena : Arena) (group : NodeId) : Except Fault Arena := do
  match ← selectedRun bound arena group with
  | ⟨true, some first, some last⟩ => do
      let pushed := arena.push { parent := group, content := .group [] }
      let fresh ← difference pushed.next 1
      let moved := ((pushed.children group).take (last + 1)).drop first
      let spliced ← editItems pushed group (splice first last [fresh])
      let hung := moved.foldl (hang · fresh) spliced
      unselect bound (hung.editItems fresh fun _ => moved) group
  | _ => .ok arena

def ungroup (arena : Arena) (group : NodeId) : Except Fault Arena :=
  match if group = NodeId.root ∨ !arena.isGroup group then none else arena.place? group with
  | none => .ok arena
  | some (parent, index) => do
      let promoted := arena.children group
      let vacated ← vacate arena group
      editItems (promoted.foldl (hang · parent) vacated) parent (splice index index promoted)

def apply (bound : Nat) (arena : Arena) : Tree.Edit → Except Fault Arena
  | .insertBefore group anchor body => insertBefore arena group anchor body
  | .insertAfter anchor body => insertAfter arena anchor body
  | .delete id => delete bound arena id
  | .clear => clear bound arena
  | .group holder => groupSelected bound arena holder
  | .ungroup id => ungroup arena id
  | .unselect group => unselect bound arena group
  | .change id edit => .ok (arena.editClause id edit)

/-! ## The way up -/

def groupDepth (arena : Arena) : Nat → NodeId → Except Fault Nat
  | 0, _ => .error .endless
  | bound + 1, id => match arena.parent? id with
    | none => .ok 0
    | some parent => (groupDepth arena bound parent).map (· + 1)

end Arena.Guarded

end WhereEditor
