import WhereEditor.Proofs.Tree.Edit

/-!
A tree kept in numbered slots, in which every node names its parent and every group lists its items.
Each edit changes the two by hand, slot by slot. Walks that go down or up from a node carry a bound
on how far they go, for which the number of slots is enough.
-/

namespace WhereEditor

inductive Content where
  | clause (body : Clause)
  | group (items : List NodeId)

structure Slot where
  parent : Option NodeId
  content : Content

namespace Slot

def clause? (slot : Slot) : Option Clause :=
  match slot.content with
  | .clause body => some body
  | .group _ => none

def items? (slot : Slot) : Option (List NodeId) :=
  match slot.content with
  | .clause _ => none
  | .group items => some items

def hang (slot : Slot) (parent : NodeId) : Slot := { slot with parent := some parent }

def editItems (slot : Slot) (edit : List NodeId → List NodeId) : Slot :=
  match slot.content with
  | .group items => { slot with content := .group (edit items) }
  | .clause _ => slot

def editClause (slot : Slot) (edit : Clause → Clause) : Slot :=
  match slot.content with
  | .group _ => slot
  | .clause body => { slot with content := .clause (edit body) }

def unmark (slot : Slot) : Slot := slot.editClause ({ · with selected := false })

end Slot

/-- The slot of a node that is gone is empty and stays so. -/
structure Arena where
  slots : List (Option Slot) := [some { parent := none, content := .group [] }]

namespace Arena

/-! ## Views -/

def next (arena : Arena) : NodeId := arena.slots.length

def slot? (arena : Arena) (id : NodeId) : Option Slot := arena.slots[id]?.join

def contains (arena : Arena) (id : NodeId) : Bool := (arena.slot? id).isSome

def items? (arena : Arena) (id : NodeId) : Option (List NodeId) :=
  (arena.slot? id).bind Slot.items?

def isGroup (arena : Arena) (id : NodeId) : Bool := (arena.items? id).isSome

def children (arena : Arena) (id : NodeId) : List NodeId := (arena.items? id).getD []

def clause? (arena : Arena) (id : NodeId) : Option Clause := (arena.slot? id).bind Slot.clause?

def parent? (arena : Arena) (id : NodeId) : Option NodeId := (arena.slot? id).bind Slot.parent

def place? (arena : Arena) (id : NodeId) : Option (NodeId × Nat) := do
  let parent ← arena.parent? id
  let index ← (arena.children parent).idxOf? id
  return (parent, index)

def selection (arena : Arena) : Nat → NodeId → Selection
  | 0, _ => .none
  | depth + 1, id => match arena.slot? id with
    | some ⟨_, .clause body⟩ => if body.selected then .all else .none
    | some ⟨_, .group items⟩ => .ofItems (items.map (arena.selection depth))
    | none => .none

def run? (arena : Arena) (group : NodeId) : Option (Nat × Nat) :=
  Selection.run? ((arena.children group).map (arena.selection arena.next))

theorem isGroup_of_slot? {arena : Arena} {id : NodeId} {slot : Slot}
    (filled : arena.slot? id = some slot) : arena.isGroup id = slot.items?.isSome := by
  rw [isGroup, items?, filled, Option.bind_some]

theorem children_of_slot? {arena : Arena} {id : NodeId} {slot : Slot}
    (filled : arena.slot? id = some slot) : arena.children id = slot.items?.getD [] := by
  rw [children, items?, filled, Option.bind_some]

/-! ## One slot at a time -/

def modify (arena : Arena) (id : NodeId) (edit : Slot → Slot) : Arena :=
  { slots := arena.slots.modify id (Option.map edit) }

def vacate (arena : Arena) (id : NodeId) : Arena := { slots := arena.slots.set id none }

def push (arena : Arena) (slot : Slot) : Arena := { slots := arena.slots ++ [some slot] }

def hang (arena : Arena) (parent id : NodeId) : Arena := arena.modify id (·.hang parent)

def editItems (arena : Arena) (id : NodeId) (edit : List NodeId → List NodeId) : Arena :=
  arena.modify id (·.editItems edit)

def editClause (arena : Arena) (id : NodeId) (edit : Clause → Clause) : Arena :=
  arena.modify id (·.editClause edit)

section OneSlot

variable (arena : Arena) (id target : NodeId)

@[simp] theorem next_modify (edit : Slot → Slot) : (arena.modify id edit).next = arena.next := by
  simp [modify, next]

@[simp] theorem next_vacate : (arena.vacate id).next = arena.next := by
  simp [vacate, next]

@[simp] theorem next_push (slot : Slot) : (arena.push slot).next = arena.next + 1 := by
  simp [push, next]

theorem slot?_modify (edit : Slot → Slot) :
    (arena.modify id edit).slot? target =
      if target = id then (arena.slot? id).map edit else arena.slot? target := by
  rw [slot?, modify, List.getElem?_modify]
  by_cases same : target = id
  · subst same
    rw [if_pos rfl, slot?]
    cases arena.slots[target]? with
    | none => rfl
    | some slot => cases slot <;> simp
  · rw [if_neg same, slot?]
    cases arena.slots[target]? <;> simp [Ne.symm same]

theorem slot?_vacate :
    (arena.vacate id).slot? target = if target = id then none else arena.slot? target := by
  rw [slot?, vacate, List.getElem?_set]
  by_cases same : target = id
  · subst same
    by_cases filled : target < arena.slots.length <;> simp [filled]
  · rw [if_neg (Ne.symm same), if_neg same, slot?]

theorem slot?_push (slot : Slot) :
    (arena.push slot).slot? target =
      if target = arena.next then some slot else arena.slot? target := by
  by_cases same : target = arena.next
  · subst same
    simp [slot?, push, next]
  · rw [if_neg same, slot?, push, slot?]
    by_cases inside : target < arena.slots.length
    · rw [List.getElem?_append_left inside]
    · have least := Nat.le_of_not_lt inside
      have beyond : arena.slots.length + 1 ≤ target := Nat.lt_of_le_of_ne least (Ne.symm same)
      rw [List.getElem?_eq_none (by simpa using beyond), List.getElem?_eq_none least]

end OneSlot

theorem lt_next_of_slot? {arena : Arena} {id : NodeId} {slot : Slot}
    (filled : arena.slot? id = some slot) : id < arena.next := by
  by_cases inside : id < arena.slots.length
  · exact inside
  · rw [slot?, List.getElem?_eq_none (Nat.le_of_not_lt inside)] at filled
    exact absurd filled (by simp)

theorem slot?_foldl_hang (ids : List NodeId) (arena : Arena) (parent target : NodeId) :
    (ids.foldl (hang · parent) arena).slot? target =
      if target ∈ ids then (arena.slot? target).map (·.hang parent) else arena.slot? target := by
  induction ids generalizing arena with
  | nil => rfl
  | cons id later ih =>
      rw [List.foldl_cons, ih, hang, slot?_modify]
      by_cases same : target = id
      · subst same
        rw [if_pos rfl, if_pos List.mem_cons_self]
        cases arena.slot? target <;> simp [Slot.hang]
      · simp only [List.mem_cons, same, false_or, if_false]

/-! ## Edits -/

def insertAt (arena : Arena) (parent : NodeId) (index : Nat) (body : Clause) : Arena :=
  (arena.push { parent, content := .clause body }).editItems parent (·.insertIdx index arena.next)

def insertBefore (arena : Arena) (group : NodeId) (anchor : Option NodeId) (body : Clause) : Arena :=
  match anchor.bind arena.place? with
  | some (parent, index) => arena.insertAt parent index body
  | none =>
      let group := if arena.isGroup group then group else NodeId.root
      arena.insertAt group (arena.children group).length body

def insertAfter (arena : Arena) (anchor : NodeId) (body : Clause) : Arena :=
  match (arena.place? anchor).bind fun (parent, index) => (arena.children parent)[index + 1]? with
  | some next => arena.insertBefore NodeId.root (some next) body
  | none => arena.insertBefore ((arena.parent? anchor).getD NodeId.root) none body

def dispose : Nat → Arena → NodeId → Arena
  | 0, arena, _ => arena
  | depth + 1, arena, id => match arena.slot? id with
    | some slot => (slot.items?.getD []).foldl (dispose depth) (arena.vacate id)
    | none => arena

def dissolve : Nat → Arena → NodeId → Arena
  | 0, arena, _ => arena
  | depth + 1, arena, group =>
      if group = NodeId.root ∨ 1 < (arena.children group).length then arena
      else match arena.place? group with
        | none => arena
        | some (parent, index) => match (arena.children group).head? with
          | some orphan =>
              ((arena.vacate group).hang parent orphan).editItems parent (·.set index orphan)
          | none => dissolve depth ((arena.vacate group).editItems parent (·.eraseIdx index)) parent

def delete (arena : Arena) (id : NodeId) : Arena :=
  match if id = NodeId.root then none else arena.parent? id with
  | none => arena
  | some parent =>
      let taken := arena.editItems parent (·.filter (· != id))
      (taken.dispose arena.next id).dissolve arena.next parent

def clear (arena : Arena) : Arena :=
  (arena.children NodeId.root).foldl (dispose arena.next) (arena.editItems NodeId.root fun _ => [])

def unselect : Nat → Arena → NodeId → Arena
  | 0, arena, _ => arena
  | depth + 1, arena, group => (arena.children group).foldl (fun arena item =>
      if arena.isGroup item then unselect depth arena item
      else arena.modify item Slot.unmark) arena

def groupSelected (arena : Arena) (group : NodeId) : Arena :=
  match arena.run? group with
  | none => arena
  | some (start, count) =>
      let moved := ((arena.children group).drop start).take count
      let spliced := (arena.push { parent := group, content := .group [] }).editItems group
        fun items => items.take start ++ arena.next :: items.drop (start + count)
      let hung := moved.foldl (hang · arena.next) spliced
      unselect hung.next (hung.editItems arena.next fun _ => moved) group

def ungroup (arena : Arena) (group : NodeId) : Arena :=
  match if group = NodeId.root ∨ !arena.isGroup group then none else arena.place? group with
  | none => arena
  | some (parent, index) =>
      let promoted := arena.children group
      let hung := promoted.foldl (hang · parent) (arena.vacate group)
      hung.editItems parent fun items => items.take index ++ promoted ++ items.drop (index + 1)

def apply (arena : Arena) : Tree.Edit → Arena
  | .insertBefore group anchor body => arena.insertBefore group anchor body
  | .insertAfter anchor body => arena.insertAfter anchor body
  | .delete id => arena.delete id
  | .clear => arena.clear
  | .group holder => arena.groupSelected holder
  | .ungroup id => arena.ungroup id
  | .unselect group => arena.unselect arena.next group
  | .change id edit => arena.editClause id edit

def after (edits : List Tree.Edit) : Arena := edits.foldl apply {}

/-! ## The number of slots -/

@[simp] theorem next_editItems (arena : Arena) (id : NodeId) (edit : List NodeId → List NodeId) :
    (arena.editItems id edit).next = arena.next := next_modify arena id _

@[simp] theorem next_editClause (arena : Arena) (id : NodeId) (edit : Clause → Clause) :
    (arena.editClause id edit).next = arena.next := next_modify arena id _

@[simp] theorem next_hang (arena : Arena) (parent id : NodeId) :
    (arena.hang parent id).next = arena.next := next_modify arena id _

@[simp] theorem next_insertAt (arena : Arena) (parent : NodeId) (index : Nat) (body : Clause) :
    (arena.insertAt parent index body).next = arena.next + 1 := by
  simp [insertAt]

theorem next_foldl {step : Arena → NodeId → Arena}
    (same : ∀ arena id, (step arena id).next = arena.next) (ids : List NodeId) (arena : Arena) :
    (ids.foldl step arena).next = arena.next := by
  induction ids generalizing arena with
  | nil => rfl
  | cons id later ih => rw [List.foldl_cons, ih, same]

@[simp] theorem next_foldl_hang (arena : Arena) (parent : NodeId) (ids : List NodeId) :
    (ids.foldl (hang · parent) arena).next = arena.next :=
  next_foldl (fun arena id => next_hang arena parent id) ids arena

@[simp] theorem next_dispose (depth : Nat) (arena : Arena) (id : NodeId) :
    (arena.dispose depth id).next = arena.next := by
  induction depth generalizing arena id with
  | zero => rfl
  | succ depth ih =>
      rw [dispose]
      split
      · rw [next_foldl ih, next_vacate]
      · rfl

@[simp] theorem next_dissolve (depth : Nat) (arena : Arena) (group : NodeId) :
    (arena.dissolve depth group).next = arena.next := by
  induction depth generalizing arena group with
  | zero => rfl
  | succ depth ih =>
      rw [dissolve]
      split
      · rfl
      · split
        · rfl
        · split
          · simp
          · simp [ih]

@[simp] theorem next_unselect (depth : Nat) (arena : Arena) (group : NodeId) :
    (arena.unselect depth group).next = arena.next := by
  induction depth generalizing arena group with
  | zero => rfl
  | succ depth ih =>
      refine next_foldl (fun arena item => ?_) _ arena
      split
      · exact ih arena item
      · exact next_modify arena item _

end Arena

end WhereEditor
