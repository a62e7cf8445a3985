import WhereEditor.Proofs.Arena.Guarded
import WhereEditor.Proofs.Arena.Walks
import WhereEditor.Proofs.Tree.Ascent
import WhereEditor.Proofs.Tree.Identity

/-!
The edits of the slots stay within their limits. Main statement: in all slots that edits lead to, no
edit comes upon a fault, whatever ids it names, if the walks may take a few steps more than there are
slots.
-/

namespace WhereEditor.Arena

variable {arena : Arena} {id parent target : NodeId} {index depth bound : Nat}

/-! ## Items of a slot -/

theorem bounds_of_place? (found : arena.place? id = some (parent, index)) :
    arena.parent? id = some parent ∧ id < arena.next ∧ index < (arena.children parent).length := by
  obtain ⟨holder, up, rest⟩ := Option.bind_eq_some_iff.mp found
  obtain ⟨place, there, same⟩ := Option.bind_eq_some_iff.mp rest
  cases same
  obtain ⟨slot, filled, _⟩ := Option.bind_eq_some_iff.mp up
  obtain ⟨inside, _⟩ := List.idxOf?_eq_some_iff.mp there
  exact ⟨up, lt_next_of_slot? filled, inside⟩

theorem modify_congr {first second : Slot → Slot}
    (same : ∀ slot, arena.slot? id = some slot → first slot = second slot) :
    arena.modify id first = arena.modify id second := by
  refine congrArg Arena.mk (List.ext_getElem? fun place => ?_)
  rw [List.getElem?_modify, List.getElem?_modify]
  by_cases here : id = place
  · subst here
    rw [slot?] at same
    rcases found : arena.slots[id]? with _ | _ | slot
    · rfl
    · rfl
    · rw [found] at same
      simpa using same slot rfl
  · simp [here]

theorem editItems_of_items?_eq_none {edit : List NodeId → List NodeId}
    (none_ : arena.items? id = none) : arena.editItems id edit = arena := by
  have same : arena.editItems id edit = arena.modify id fun slot => slot := by
    refine modify_congr fun slot filled => ?_
    rw [items?, filled, Option.bind_some] at none_
    rcases slot with ⟨_, body | own⟩
    · rfl
    · exact absurd none_ (by simp [Slot.items?])
  refine same.trans (congrArg Arena.mk (List.ext_getElem? fun place => ?_))
  rw [List.getElem?_modify]
  cases arena.slots[place]? <;> simp

theorem items?_foldl_hang (ids : List NodeId) (arena : Arena) :
    (ids.foldl (hang · parent) arena).items? target = arena.items? target := by
  rw [items?, items?, slot?_foldl_hang]
  split
  · cases arena.slot? target <;> rfl
  · rfl

theorem items?_hang : (arena.hang parent id).items? target = arena.items? target :=
  items?_foldl_hang [id] arena

theorem children_of_items?_vacate {items : List NodeId}
    (found : (arena.vacate id).items? target = some items) : arena.children target = items := by
  rw [items?, slot?_vacate] at found
  split at found
  · exact absurd found (by simp)
  · rw [children, items?, found, Option.getD_some]

theorem children_push {slot : Slot} (bare : slot.items?.getD [] = []) :
    (arena.push slot).children target = arena.children target := by
  rw [children, children, items?, items?, slot?_push]
  split
  · rename_i fresh
    have empty : arena.slot? target = none := by
      rw [slot?, fresh, next, List.getElem?_eq_none (Nat.le_refl _)]
      rfl
    rw [Option.bind_some, bare, empty]
    rfl
  · rfl

theorem children_of_items? {items : List NodeId} (found : arena.items? target = some items) :
    arena.children target = items := by
  rw [children, found, Option.getD_some]

namespace Guarded

/-! ## One slot at a time -/

theorem difference_push (slot : Slot) : difference (arena.push slot).next 1 = .ok arena.next := by
  rw [difference, next_push, if_pos (Nat.le_add_left 1 _), Nat.add_sub_cancel]

theorem vacate_eq_ok (inside : id < arena.next) : vacate arena id = .ok (arena.vacate id) :=
  if_pos inside

theorem editItems_eq_ok {edit : List NodeId → Except Fault (List NodeId)}
    {plain : List NodeId → List NodeId}
    (fits : ∀ items, arena.items? id = some items → edit items = .ok (plain items)) :
    editItems arena id edit = .ok (arena.editItems id plain) := by
  rw [editItems]
  cases found : arena.items? id with
  | none => exact congrArg Except.ok (editItems_of_items?_eq_none found).symm
  | some items =>
      refine (congrArg (Except.map _) (fits items found)).trans ?_
      refine congrArg Except.ok (modify_congr fun slot filled => ?_)
      rw [items?, filled, Option.bind_some] at found
      rcases slot with ⟨_, body | own⟩
      · exact absurd found (by simp [Slot.items?])
      · cases found
        rfl

/-! ## Clauses -/

theorem insertAt_eq_ok (body : Clause) (fits : index ≤ (arena.children parent).length) :
    insertAt arena parent index body = .ok (arena.insertAt parent index body) := by
  rw [insertAt, difference_push]
  refine editItems_eq_ok fun items found => if_pos ?_
  rwa [← children_of_items? found, children_push rfl]

theorem insertBefore_eq_ok (arena : Arena) (group : NodeId) (anchor : Option NodeId)
    (body : Clause) :
    insertBefore arena group anchor body = .ok (arena.insertBefore group anchor body) := by
  rw [insertBefore, Arena.insertBefore]
  cases place : anchor.bind arena.place? with
  | none => exact insertAt_eq_ok body (Nat.le_refl _)
  | some found =>
      obtain ⟨id, _, at_⟩ := Option.bind_eq_some_iff.mp place
      exact insertAt_eq_ok body (Nat.le_of_lt (bounds_of_place? at_).2.2)

theorem insertAfter_eq_ok (arena : Arena) (anchor : NodeId) (body : Clause) :
    insertAfter arena anchor body = .ok (arena.insertAfter anchor body) := by
  rw [insertAfter, Arena.insertAfter]
  split
  · rename_i next found
    simpa only [found] using insertBefore_eq_ok arena NodeId.root (some next) body
  · rename_i missing
    simpa only [missing] using insertBefore_eq_ok arena _ none body

theorem ungroup_eq_ok (arena : Arena) (group : NodeId) :
    ungroup arena group = .ok (arena.ungroup group) := by
  rw [ungroup, Arena.ungroup]
  by_cases refused : group = NodeId.root ∨ (!arena.isGroup group) = true
  · rw [if_pos refused]
  · rw [if_neg refused]
    cases place : arena.place? group with
    | none => rfl
    | some found =>
        obtain ⟨_, inside, fits⟩ := bounds_of_place? place
        simp only [vacate_eq_ok inside]
        refine editItems_eq_ok fun items there => if_pos ⟨by omega, ?_⟩
        rw [items?_foldl_hang] at there
        rwa [← children_of_items?_vacate there]

/-! ## Walks down -/

theorem foldlM_eq_ok {step : Arena → NodeId → Except Fault Arena} {plain : Arena → NodeId → Arena}
    (fades : ∀ arena id, (plain arena id).Fades arena) {ids : List NodeId}
    (steps : ∀ later : Arena, later.Fades arena → ∀ id ∈ ids, step later id = .ok (plain later id)) :
    ids.foldlM step arena = .ok (ids.foldl plain arena) := by
  induction ids generalizing arena with
  | nil => rfl
  | cons id rest ih =>
      obtain ⟨here, further⟩ := List.forall_mem_cons.mp (steps arena (.refl arena))
      rw [List.foldlM_cons, here]
      refine ih fun later onward other member => ?_
      exact steps later (onward.trans (fades arena id)) other (List.mem_cons_of_mem _ member)

theorem dispose_eq_ok (shallow : arena.Shallow depth id) (enough : depth ≤ bound) :
    dispose bound arena id = .ok (arena.dispose depth id) := by
  induction depth generalizing arena id bound with
  | zero => exact shallow.elim
  | succ depth ih =>
      obtain ⟨bound, rfl⟩ := Nat.exists_eq_succ_of_ne_zero (by omega : bound ≠ 0)
      rw [dispose, Arena.dispose]
      cases filled : arena.slot? id with
      | none => rfl
      | some slot =>
          refine foldlM_eq_ok (.dispose depth) fun later fades item member => ?_
          rw [← children_of_slot? filled] at member
          exact ih ((shallow item member).fades (fades.trans (.vacate arena id)))
            (Nat.le_of_succ_le_succ enough)

theorem unselect_eq_ok (shallow : arena.Shallow depth id) (enough : depth ≤ bound) :
    unselect bound arena id = .ok (arena.unselect depth id) := by
  induction depth generalizing arena id bound with
  | zero => exact shallow.elim
  | succ depth ih =>
      obtain ⟨bound, rfl⟩ := Nat.exists_eq_succ_of_ne_zero (by omega : bound ≠ 0)
      rw [unselect, Arena.unselect]
      refine foldlM_eq_ok (fun arena item => ?_) fun later fades item member => ?_
      · split
        · exact .unselect depth arena item
        · exact .unmark arena item
      · split
        · exact ih ((shallow item member).fades fades) (Nat.le_of_succ_le_succ enough)
        · rfl

theorem selection_eq_ok (shallow : arena.Shallow depth id) (enough : depth ≤ bound) :
    selection arena bound id = .ok (arena.selection depth id) := by
  induction depth generalizing id bound with
  | zero => exact shallow.elim
  | succ depth ih =>
      obtain ⟨bound, rfl⟩ := Nat.exists_eq_succ_of_ne_zero (by omega : bound ≠ 0)
      rw [selection, Arena.selection]
      rcases filled : arena.slot? id with _ | ⟨_, body | items⟩
      · rfl
      · rfl
      · have marks : items.mapM (selection arena bound) = .ok (items.map (arena.selection depth)) := by
          refine mapM_eq_pure_map fun item member => ih (shallow item ?_) (Nat.le_of_succ_le_succ enough)
          rwa [children_of_slot? filled]
        exact congrArg (Except.map Selection.ofItems) marks

/-! ## The way up -/

theorem dissolve_eq_ok (climbs : arena.Climbs depth id) (enough : depth ≤ bound) :
    dissolve bound arena id = .ok (arena.dissolve depth id) := by
  induction depth generalizing arena id bound with
  | zero => exact climbs.elim
  | succ depth ih =>
      obtain ⟨bound, rfl⟩ := Nat.exists_eq_succ_of_ne_zero (by omega : bound ≠ 0)
      rw [dissolve, Arena.dissolve]
      split
      · rfl
      · cases place : arena.place? id with
        | none => rfl
        | some found =>
            obtain ⟨parent, index⟩ := found
            obtain ⟨up, inside, fits⟩ := bounds_of_place? place
            simp only [vacate_eq_ok inside]
            cases (arena.children id).head? with
            | some orphan =>
                refine editItems_eq_ok fun items there => if_pos ?_
                rw [items?_hang] at there
                rwa [← children_of_items?_vacate there]
            | none =>
                have dropped : editItems (arena.vacate id) parent (eraseIdx index) =
                    .ok ((arena.vacate id).editItems parent (·.eraseIdx index)) :=
                  editItems_eq_ok fun items there =>
                    if_pos (by rwa [← children_of_items?_vacate there])
                have fades := (Fades.editItems (arena.vacate id) parent fun items =>
                  List.eraseIdx_subset (l := items) (k := index)).trans (.vacate arena id)
                -- The way up from the parent is the one before, for no parent has changed.
                refine (bind_of_eq_ok dropped (dissolve bound · parent)).trans ?_
                exact ih ((climbs parent up).fades fades) (Nat.le_of_succ_le_succ enough)

theorem groupDepth_eq_ok {tree : Tree} (represents : arena.Represents tree) (sound : tree.Sound)
    (climbs : arena.Climbs depth id) (enough : depth ≤ bound) :
    groupDepth arena bound id = .ok (tree.groupDepth id) := by
  induction depth generalizing id bound with
  | zero => exact climbs.elim
  | succ depth ih =>
      obtain ⟨bound, rfl⟩ := Nat.exists_eq_succ_of_ne_zero (by omega : bound ≠ 0)
      rw [groupDepth]
      cases up : arena.parent? id with
      | none =>
          rw [represents.parent?_eq sound, Tree.parent?, Option.map_eq_none_iff,
            List.head?_eq_none_iff] at up
          rw [Tree.groupDepth, up, List.length_nil]
      | some parent =>
          have above := ih (climbs parent up) (Nat.le_of_succ_le_succ enough)
          rw [represents.parent?_eq sound] at up
          rw [sound.groupDepth_of_parent? up]
          exact congrArg (Except.map (· + 1)) above

/-! ## Whole edits that take nodes out -/

theorem delete_eq_ok (shallow : ∀ id, arena.Shallow arena.next id)
    (climbs : ∀ id, arena.Climbs arena.next id) (enough : arena.next ≤ bound) (id : NodeId) :
    delete bound arena id = .ok (arena.delete id) := by
  rw [delete, Arena.delete]
  cases if id = NodeId.root then none else arena.parent? id with
  | none => rfl
  | some parent =>
      have fades : (arena.editItems parent (·.filter (· != id))).Fades arena :=
        .editItems arena parent fun _ => List.filter_subset_self _
      have disposed := dispose_eq_ok ((shallow id).fades fades) enough
      refine (bind_of_eq_ok disposed (dissolve bound · parent)).trans ?_
      exact dissolve_eq_ok ((climbs parent).fades ((Fades.dispose _ _ id).trans fades)) enough

theorem clear_eq_ok (shallow : ∀ id, arena.Shallow arena.next id) (enough : arena.next ≤ bound) :
    clear bound arena = .ok arena.clear := by
  have fades : (arena.editItems NodeId.root fun _ => []).Fades arena :=
    .editItems arena NodeId.root fun _ => List.nil_subset _
  exact foldlM_eq_ok (.dispose arena.next) fun later onward item _ =>
    dispose_eq_ok ((shallow item).fades (onward.trans fades)) enough

/-! ## The scan -/

/-- What has been noted lies behind the scan, which has not come to a run, is in one, or past it. -/
inductive Noted : Scan → Nat → Prop where
  | before {gap count index} : Noted ⟨none, none, gap, count⟩ index
  | within {first gap count index} (behind : first < index) : Noted ⟨some first, none, gap, count⟩ index
  | beyond {first last gap count index} (ordered : first ≤ last) (behind : last < index) :
      Noted ⟨some first, some last, gap, count⟩ index

variable {scan : Scan}

theorem Noted.onward {more : Nat} (noted : Noted scan index) (le : index ≤ more) (gap : Bool) :
    Noted { scan with gap } more := by
  cases noted with
  | before => exact .before
  | within behind => exact .within (Nat.lt_of_lt_of_le behind le)
  | beyond ordered behind => exact .beyond ordered (Nat.lt_of_lt_of_le behind le)

/-- The difference is taken only where a run has begun at an earlier item. -/
theorem note_eq_ok (noted : Noted scan index) (item : Selection) :
    note scan index item = .ok (scan.note index item) ∧ Noted (scan.note index item) (index + 1) := by
  cases noted with
  | before =>
      cases item with
      | all => exact ⟨rfl, .within (Nat.lt_succ_self index)⟩
      | partly | none => exact ⟨rfl, .before⟩
  | @within first gap count _ behind =>
      have positive : difference index 1 = .ok (index - 1) := if_pos (by omega)
      have ends : Noted ⟨some first, some (index - 1), gap, count⟩ (index + 1) :=
        .beyond (by omega) (by omega)
      cases item with
      | all => exact ⟨rfl, .within (Nat.lt_succ_of_lt behind)⟩
      | partly | none => exact ⟨by simp only [note, positive]; rfl, ends⟩
  | beyond ordered behind =>
      refine ⟨by cases item <;> rfl, ?_⟩
      cases item <;> exact .beyond ordered (Nat.lt_succ_of_lt behind)

theorem along_eq_ok {mark : NodeId → Except Fault Selection} {plain : NodeId → Selection}
    {items : List NodeId} (marks : ∀ item ∈ items, mark item = .ok (plain item))
    (noted : Noted scan index) :
    along mark scan index items = .ok (scan.along index (items.map plain)) ∧
      Noted (scan.along index (items.map plain)) (index + items.length) := by
  induction items generalizing scan index with
  | nil => exact ⟨rfl, noted⟩
  | cons id later ih =>
      obtain ⟨here, further⟩ := List.forall_mem_cons.mp marks
      obtain ⟨step, onward⟩ := note_eq_ok noted (plain id)
      have rest := ih further onward
      have beyond : index + 1 + later.length = index + (id :: later).length := by
        rw [List.length_cons]
        omega
      rw [beyond] at rest
      rw [along, here, List.map_cons]
      cases mark : plain id with
      | partly => exact ⟨rfl, noted.onward (Nat.le_add_right _ _) true⟩
      | all | none =>
          rw [mark] at step onward rest
          simp only [bind, Except.bind, step, Scan.along]
          split
          · exact ⟨rfl, onward.onward (by rw [List.length_cons]; omega) true⟩
          · exact rest

theorem exists_bounds_of_canGroup {length : Nat} (noted : Noted scan length)
    (canGroup : (found scan length).canGroup = true) :
    ∃ first last, found scan length = ⟨true, some first, some last⟩ ∧ first ≤ last ∧ last < length := by
  cases noted with
  | before => exact absurd canGroup (by simp [found])
  | @within first gap count _ behind =>
      have inhabited : length ≠ 0 := Nat.ne_zero_of_lt behind
      obtain ⟨rfl, many⟩ : gap = false ∧ 1 < count := by simpa [found] using canGroup
      exact ⟨first, length - 1, by simp [found, many, inhabited], by omega, by omega⟩
  | @beyond first last gap count _ ordered behind =>
      exact ⟨first, last, by simpa [found] using canGroup, ordered, behind⟩

def Found.run? : Found → Option (Nat × Nat)
  | ⟨true, some first, some last⟩ => some (first, last + 1 - first)
  | _ => none

theorem run?_found (scan : Scan) (length : Nat) : (found scan length).run? = scan.run? length := by
  obtain ⟨first, last, gap, count⟩ := scan
  rw [Scan.run?, found]
  cases first.isSome && !gap && decide (1 < count) with
  | false => rfl
  | true =>
      cases first with
      | none => rfl
      | some first =>
          cases if !gap && last.isNone then if length = 0 then none else some (length - 1) else last with
          | none => rfl
          | some last => rfl

theorem selectedRun_eq_ok (shallow : ∀ id, arena.Shallow arena.next id) (enough : arena.next ≤ bound)
    (group : NodeId) :
    ∃ found, selectedRun bound arena group = .ok found ∧ found.run? = arena.run? group ∧
      (found.canGroup = true → ∃ first last, found = ⟨true, some first, some last⟩ ∧
        first ≤ last ∧ last < (arena.children group).length) := by
  have marks : ∀ item ∈ arena.children group,
      selection arena bound item = .ok (arena.selection arena.next item) :=
    fun item _ => selection_eq_ok (shallow item) enough
  have start : Noted {} 0 := .before
  obtain ⟨scanned, noted⟩ := along_eq_ok marks start
  rw [Nat.zero_add] at noted
  refine ⟨_, congrArg (Except.map _) scanned, ?_, exists_bounds_of_canGroup noted⟩
  rw [run?_found, Arena.run?, ← Scan.run?_along, List.length_map]

/-! ## Grouping -/

def wrapped (arena : Arena) (group : NodeId) (start count : Nat) : Arena :=
  let moved := ((arena.children group).drop start).take count
  let spliced := (arena.push { parent := group, content := .group [] }).editItems group
    fun items => items.take start ++ arena.next :: items.drop (start + count)
  (moved.foldl (hang · arena.next) spliced).editItems arena.next fun _ => moved

theorem shallow_wrapped {tree : Tree} (represents : arena.Represents tree) (sound : tree.Sound)
    {group : NodeId} {start count : Nat} (run : arena.run? group = some (start, count)) :
    (wrapped arena group start count).Shallow (arena.next + 1) group := by
  rw [represents.run?_eq sound, Tree.run?] at run
  obtain ⟨row, found, selected⟩ := Option.bind_eq_some_iff.mp run
  obtain ⟨layers, rfl, whole, _⟩ := sound.exists_layers found
  obtain ⟨holds, apart, _⟩ := represents.holds_of_within sound whole
  have inhabited : row ≠ .nil := by
    rintro rfl
    exact absurd selected (by simp [Forest.selections, Selection.run?])
  have deepest := Forest.height_lt_length_ids (sound.atLeast_row? found) inhabited
  have fits := represents.length_ids_add_length_lt_next sound whole
  have grown := row.height_wrap_le start count arena.next
  have wraps := holds.wrapRun apart start count
  rw [wrapped, holds.children_holder]
  exact (wraps.shallow (Nat.lt_succ_self _)).mono (by omega)

theorem groupSelected_eq_ok {tree : Tree} (represents : arena.Represents tree) (sound : tree.Sound)
    (enough : arena.next < bound) (group : NodeId) :
    groupSelected bound arena group = .ok (arena.groupSelected group) := by
  obtain ⟨⟨canGroup, begins, ends⟩, scanned, run, bounds⟩ :=
    selectedRun_eq_ok (represents.shallow sound) (Nat.le_of_lt enough) group
  rw [groupSelected, scanned, Arena.groupSelected]
  cases canGroup with
  | false =>
      rw [← run]
      rfl
  | true =>
      obtain ⟨first, last, same, ordered, inside⟩ := bounds rfl
      cases same
      have taken : arena.run? group = some (first, last + 1 - first) := run.symm
      have stop : first + (last + 1 - first) = last + 1 := by omega
      have items : (arena.push { parent := group, content := .group [] }).children group =
          arena.children group := children_push rfl
      have moved : ((arena.children group).take (last + 1)).drop first =
          ((arena.children group).drop first).take (last + 1 - first) := List.drop_take
      have spliced :
          editItems (arena.push { parent := group, content := .group [] }) group
              (splice first last [arena.next]) =
            .ok ((arena.push { parent := group, content := .group [] }).editItems group
              fun items => items.take first ++ arena.next :: items.drop (last + 1)) := by
        refine editItems_eq_ok fun row there => ?_
        rw [← children_of_items? there, items, splice, if_pos ⟨by omega, inside⟩,
          List.append_assoc, List.singleton_append]
      -- The marks are taken off last, in a row that the new group has made one level deeper.
      have shallow := shallow_wrapped represents sound taken
      rw [wrapped, stop] at shallow
      rw [taken]
      simp only [difference_push, bind, Except.bind, items, moved, spliced, stop]
      simp only [next_foldl_hang, next_editItems, next_push]
      exact unselect_eq_ok shallow enough

/-! ## Every edit -/

theorem apply_eq_ok {tree : Tree} (represents : arena.Represents tree) (sound : tree.Sound)
    (enough : arena.next < bound) (edit : Tree.Edit) :
    apply bound arena edit = .ok (arena.apply edit) := by
  have shallow := represents.shallow sound
  have climbs := represents.climbs sound
  have many := Nat.le_of_lt enough
  cases edit with
  | insertBefore group anchor body => exact insertBefore_eq_ok arena group anchor body
  | insertAfter anchor body => exact insertAfter_eq_ok arena anchor body
  | delete id => exact delete_eq_ok shallow climbs many id
  | clear => exact clear_eq_ok shallow many
  | group holder => exact groupSelected_eq_ok represents sound enough holder
  | ungroup id => exact ungroup_eq_ok arena id
  | unselect group => exact unselect_eq_ok (shallow group) many
  | change id edit => rfl

theorem foldlM_apply_eq_ok {tree : Tree} (represents : arena.Represents tree) (sound : tree.Sound)
    (edits : List Tree.Edit) (enough : (edits.foldl Arena.apply arena).next < bound) :
    edits.foldlM (apply bound) arena = .ok (edits.foldl Arena.apply arena) := by
  induction edits generalizing arena tree with
  | nil => rfl
  | cons edit later ih =>
      have onwards : Precedes (arena.apply edit) (later.foldl Arena.apply (arena.apply edit)) :=
        .foldl Precedes.apply later _
      have grown := (Precedes.apply arena edit).trans onwards
      have here := apply_eq_ok represents sound (Nat.lt_of_le_of_lt grown.next_le enough) edit
      have kept := sound.apply (Nat.le_refl 1) (by decide) (.inr rfl : edit.Outermost ∨ 1 = 1)
      refine (bind_of_eq_ok here (later.foldlM (apply bound))).trans ?_
      exact ih (represents.apply sound edit) kept enough

end Guarded

/-- In all slots that edits lead to, and with whatever ids, no edit comes upon a fault, if walks may
take some more steps than there are slots: it does what the edit without limits does, and so what the
tree does. The run that is found for grouping lies within the row of the group. -/
theorem guarded_after (edits : List Tree.Edit) (edit : Tree.Edit)
    (enough : (after edits).next < bound) :
    let arena := after edits
    let tree := Tree.after edits
    edits.foldlM (Guarded.apply bound) {} = .ok arena ∧
      Guarded.apply bound arena edit = .ok (arena.apply edit) ∧
      (arena.apply edit).view = (tree.apply edit).view ∧
      (∀ group, ∃ found, Guarded.selectedRun bound arena group = .ok found ∧
        found.run? = tree.run? group ∧
        (found.canGroup = true → ∃ first last, found.first = some first ∧ found.last = some last ∧
          first ≤ last ∧ last < (tree.children group).length)) ∧
      (∀ group, Guarded.dissolve bound arena group = .ok (arena.dissolve arena.next group)) ∧
      ∀ id, Guarded.groupDepth arena bound id = .ok (tree.groupDepth id) := by
  intro arena tree
  have sound : tree.Sound := Tree.sound_after edits
  have represents : arena.Represents tree := Tree.represents_after edits
  have many : arena.next ≤ bound := Nat.le_of_lt enough
  refine ⟨Guarded.foldlM_apply_eq_ok Represents.empty Tree.Sound.empty edits enough,
    Guarded.apply_eq_ok represents sound enough edit, ?_, ?_, ?_, ?_⟩
  · have kept := sound.apply (Nat.le_refl 1) (by decide) (.inr rfl : edit.Outermost ∨ 1 = 1)
    exact (represents.apply sound edit).view_eq kept
  · intro group
    obtain ⟨found, scanned, run, bounds⟩ :=
      Guarded.selectedRun_eq_ok (represents.shallow sound) many group
    rw [represents.run?_eq sound] at run
    rw [represents.children_eq sound] at bounds
    refine ⟨found, scanned, run, fun canGroup => ?_⟩
    obtain ⟨first, last, rfl, ordered, inside⟩ := bounds canGroup
    exact ⟨first, last, rfl, rfl, ordered, inside⟩
  · exact fun group => Guarded.dissolve_eq_ok (represents.climbs sound group) many
  · exact fun id => Guarded.groupDepth_eq_ok represents sound (represents.climbs sound id) many

/-- A group that loses one of its two items, and an id far beyond all slots. A walk that may take one
step only is cut off. -/
theorem guarded_after_pair :
    let edits : List Tree.Edit := [.fresh, .fresh, .fresh, .mark 2, .mark 3, .group NodeId.root]
    let arena := after edits
    let beyond : NodeId := 18446744073709551615
    arena.next < 6 ∧ arena.children NodeId.root = [1, 4] ∧
      Guarded.apply 6 arena (.delete 3) = .ok (arena.apply (.delete 3)) ∧
      (arena.apply (.delete 3)).children NodeId.root = [1, 2] ∧
      Guarded.apply 6 arena (.delete beyond) = .ok (arena.apply (.delete beyond)) ∧
      Guarded.groupDepth arena 6 2 = .ok 2 ∧ Guarded.groupDepth arena 1 2 = .error .endless := by
  intro edits arena beyond
  have enough : arena.next < 6 := by decide +kernel
  obtain ⟨_, pair, _, _, _, depth⟩ := guarded_after edits (.delete 3) enough
  obtain ⟨_, missing, _⟩ := guarded_after edits (.delete beyond) enough
  have two : (Tree.after edits).groupDepth 2 = 2 := by decide +kernel
  have walked := depth 2
  rw [two] at walked
  refine ⟨enough, by decide +kernel, pair, by decide +kernel, missing, walked, ?_⟩
  decide +kernel

end WhereEditor.Arena
