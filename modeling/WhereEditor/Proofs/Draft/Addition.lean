import WhereEditor.Proofs.Arena.Represents
import WhereEditor.Proofs.Draft.Deletion
import WhereEditor.Proofs.Tree.Fresh
import WhereEditor.Proofs.Tree.Growth

/-!
A clause that is added by its position and taken out again. Main statement: in every draft that
operations and lines lead to, it comes in at that position, in the group of the clause that was there
before, or at the end of the root; and when it is deleted, no group is dissolved, so that all is as it
was but for the next id.
-/

namespace WhereEditor

namespace Forest

variable {grown row : Forest} {layers : List Layer} {gone : Finset NodeId}

theorem atLeast_of_within {least : Nat} (occupied : (row.within layers).AtLeast least) :
    row.AtLeast least := by
  induction layers generalizing row with
  | nil => exact occupied
  | cons layer outer ih => exact ((atLeast_append _ _).mp (ih occupied)).2.2.1

/-- Where a row has grown by what is pruned again, the groups around it stay, for each of them has
two items without it. -/
theorem prune_within (back : grown.prune gone = row) (occupied : (row.within layers).AtLeast 2)
    (apart : ∀ entry ∈ (row.within layers).clauses, entry.1 ∉ gone) :
    (grown.within layers).prune gone = row.within layers := by
  induction layers generalizing grown row with
  | nil => exact back
  | cons layer outer ih =>
      refine ih ?_ occupied apart
      have inner : ((layer.left ++ group layer.id row layer.right).within outer).AtLeast 2 := occupied
      obtain ⟨leftOccupied, wide, _, rightOccupied⟩ :=
        (atLeast_append _ _).mp (atLeast_of_within inner)
      obtain ⟨before, beyond, _, around⟩ := exists_clauses_within outer
      rw [within, around, clauses_append, clauses] at apart
      have leftApart : ∀ entry ∈ layer.left.clauses, entry.1 ∉ gone :=
        fun entry member => apart entry (by simp [member])
      have rightApart : ∀ entry ∈ layer.right.clauses, entry.1 ∉ gone :=
        fun entry member => apart entry (by simp [member])
      have stays : 2 ≤ grown.remaining gone := by rwa [← width_prune, back]
      rw [prune_append, prune, if_pos stays, back, prune_eq_self leftOccupied leftApart,
        prune_eq_self rightOccupied rightApart]

theorem prune_singleton_within {left right : Forest} {fresh : NodeId} {body : Clause}
    (occupied : ((left ++ right).within layers).AtLeast 2)
    (absent : fresh ∉ ((left ++ right).within layers).ids) :
    ((left ++ (clause fresh body nil ++ right)).within layers).prune {fresh} =
      (left ++ right).within layers := by
  have apart : ∀ entry ∈ ((left ++ right).within layers).clauses,
      entry.1 ∉ ({fresh} : Finset NodeId) := by
    intro entry member taken
    exact absent (Finset.mem_singleton.mp taken ▸ mem_ids_of_mem_clauses member)
  have inRow : ∀ entry ∈ (left ++ right).clauses, entry.1 ∉ ({fresh} : Finset NodeId) := by
    obtain ⟨before, beyond, _, around⟩ := exists_clauses_within layers
    intro entry member
    refine apart entry ?_
    rw [around]
    exact List.mem_append_right _ (List.mem_append_left _ member)
  have others := prune_eq_self (atLeast_of_within occupied) inRow
  have alone : (clause fresh body nil).prune {fresh} = nil := if_pos (Finset.mem_singleton_self _)
  refine prune_within ?_ occupied apart
  rw [prune_append, prune_append, alone, nil_append, ← prune_append, others]

end Forest

namespace Tree

variable {tree : Tree}

def addAt (tree : Tree) (position : Nat) (body : Clause) : Tree :=
  tree.insertBefore NodeId.root ((tree.clauses[position]?).map (·.1)) body

def holderAt (tree : Tree) (position : Nat) : Option NodeId :=
  (tree.clauses[position]?).elim (some NodeId.root) fun entry => tree.parent? entry.1

namespace Sound

/-- A position cuts a row of the tree, and with it the order of the clauses. What is added there comes
in at the cut. -/
theorem exists_cut_at (sound : tree.Sound) (position : Nat) (body : Clause) :
    ∃ (left right : Forest) (layers : List Layer) (before beyond : List (NodeId × Clause)),
      tree.row = (left ++ right).within layers ∧
      (tree.addAt position body).row =
        (left ++ (.clause tree.next body .nil ++ right)).within layers ∧
      tree.holderAt position = some (Layer.holder layers) ∧
      (∀ row : Forest, (row.within layers).clauses = before ++ (row.clauses ++ beyond)) ∧
      (before ++ left.clauses).length = min position tree.clauses.length := by
  rw [addAt, holderAt]
  cases found : tree.clauses[position]? with
  | none =>
      have past : tree.clauses.length ≤ position := List.getElem?_eq_none_iff.mp found
      refine ⟨tree.row, .nil, [], [], [], by simp [Forest.within], rfl, rfl,
        fun row => by simp [Forest.within], ?_⟩
      rw [Nat.min_eq_right past]
      rfl
  | some entry =>
      have member : entry ∈ tree.clauses := List.mem_of_getElem? found
      obtain ⟨left, right, layers, whole⟩ := Forest.exists_cut_of_mem_clauses sound.distinct member
      obtain ⟨before, beyond, _, around⟩ := Forest.exists_clauses_within layers
      refine ⟨left, _, layers, before, beyond, whole,
        sound.row_insertBefore whole (.clause entry.2) body _,
        sound.parent?_item whole (.clause entry.2), around, ?_⟩
      have order : tree.clauses =
          (before ++ left.clauses) ++ entry :: (right.clauses ++ beyond) := by
        rw [clauses, whole, around]
        simp [Forest.clauses]
      have same : tree.clauses[(before ++ left.clauses).length]? = some entry := by
        rw [order, List.getElem?_append_right (Nat.le_refl _), Nat.sub_self,
          List.getElem?_cons_zero]
      obtain ⟨inside, _⟩ := List.getElem?_eq_some_iff.mp found
      obtain ⟨reached, _⟩ := List.getElem?_eq_some_iff.mp same
      rw [Nat.min_eq_left (Nat.le_of_lt inside)]
      exact (List.getElem?_inj reached (Forest.nodup_clauses sound.distinct)).mp
        (same.trans found.symm)

theorem clauses_addAt (sound : tree.Sound) (position : Nat) (body : Clause) :
    (tree.addAt position body).clauses =
      tree.clauses.insertIdx (min position tree.clauses.length) (tree.next, body) := by
  obtain ⟨left, right, layers, before, beyond, whole, grown, _, around, index⟩ :=
    sound.exists_cut_at position body
  have order : tree.clauses = (before ++ left.clauses) ++ (right.clauses ++ beyond) := by
    rw [clauses, whole, around]
    simp
  rw [← index, order, insertIdx_between, clauses, grown, around]
  simp [Forest.clauses]

theorem addAt (sound : tree.Sound 2) (position : Nat) (body : Clause) :
    (tree.addAt position body).Sound 2 := sound.insertBefore _ _ body

theorem parent?_addAt (sound : tree.Sound 2) (position : Nat) (body : Clause) :
    (tree.addAt position body).parent? tree.next = tree.holderAt position := by
  obtain ⟨_, _, _, _, _, _, grown, holder, _⟩ :=
    (sound.mono (by decide)).exists_cut_at position body
  rw [holder]
  exact ((sound.addAt position body).mono (by decide)).parent?_item grown (.clause body)

theorem prune_addAt (sound : tree.Sound 2) (position : Nat) (body : Clause) :
    (tree.addAt position body).prune {tree.next} = { tree with next := tree.next + 1 } := by
  obtain ⟨left, right, layers, _, _, whole, grown, _⟩ :=
    (sound.mono (by decide)).exists_cut_at position body
  have row : (tree.addAt position body).row.prune {tree.next} = tree.row := by
    rw [grown, whole]
    exact Forest.prune_singleton_within (whole ▸ sound.occupied) (whole ▸ sound.next_not_mem)
  have next : (tree.addAt position body).next = tree.next + 1 := tree.next_insertBefore _ _ body
  rw [Tree.prune, row, next]

end Sound

end Tree

namespace Draft

/-- In every draft that operations and lines lead to, a clause that is added by its position comes in
there, or last, in the group of the clause that was there before, or in the root. To delete it again
takes back all but the id that it got. The slots show the same. -/
theorem delete_add_after (settings : Settings) (steps : List Step) (position : Nat)
    (field : Option String) :
    let draft := after settings steps
    let tree := draft.tree
    let added := draft.add position field
    let fresh := tree.next
    let body := field.elim (.blank draft.api)
      ((Clause.blank draft.api).setField draft.api draft.settings.schema)
    let anchor := tree.clauses[position]?
    added.tree.clauses = tree.clauses.insertIdx (min position tree.clauses.length) (fresh, body) ∧
      added.tree.parent? fresh =
        anchor.elim (some NodeId.root) (fun entry => tree.parent? entry.1) ∧
      added.delete fresh = { draft with tree := { tree with next := fresh + 1 } } ∧
      (added.delete fresh).tree.view = tree.view ∧
      ∃ edits, tree = Tree.after edits ∧
        let slots := Arena.after edits
        let grown := slots.insertBefore NodeId.root (anchor.map (·.1)) body
        slots.view = tree.view ∧ grown.view = added.tree.view ∧
          (grown.delete fresh).view = slots.view := by
  intro draft tree added fresh body anchor
  have sound : tree.Sound 2 := sound_after settings steps
  have whole : tree.Sound := sound.mono (by decide)
  have grown : added.tree.Sound 2 := sound.addAt position body
  have weak : added.tree.Sound := grown.mono (by decide)
  have undone : added.delete fresh = { draft with tree := { tree with next := fresh + 1 } } := by
    rw [delete_eq_prune grown]
    exact congrArg (fun tree => { draft with tree }) (sound.prune_addAt position body)
  have restored : (added.delete fresh).tree.view = tree.view := by
    rw [undone]
    rfl
  have order : added.tree.clauses =
      tree.clauses.insertIdx (min position tree.clauses.length) (fresh, body) :=
    whole.clauses_addAt position body
  refine ⟨order, sound.parent?_addAt position body, undone, restored, ?_⟩
  obtain ⟨edits, _, (reached : tree = Tree.after edits)⟩ := reaches_after settings steps
  have represents : (Arena.after edits).Represents tree := reached ▸ Tree.represents_after edits
  have grows := represents.insertBefore whole NodeId.root (anchor.map (·.1)) body
  have shrinks := grows.delete weak fresh
  refine ⟨edits, reached, represents.view_eq whole, grows.view_eq weak, ?_⟩
  have there : (fresh, body) ∈ added.tree.clauses := by
    rw [order]
    exact (List.mem_insertIdx (Nat.min_le_right _ _)).mpr (.inl rfl)
  have live : (added.tree.clause? fresh).isSome := by
    rw [weak.clause?_eq_some_iff.mpr there, Option.isSome_some]
  rw [shrinks.view_eq (weak.delete (by decide) fresh), represents.view_eq whole, ← restored,
    delete, if_pos live]
  rfl

end Draft

end WhereEditor
