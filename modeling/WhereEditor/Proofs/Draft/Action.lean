import WhereEditor.Proofs.Tree.Sound
import WhereEditor.Shell

/-!
What can be done to a draft, as data: its operations with any arguments, and lines of a session. A
line does what some operations do, and an operation what some edits of the tree do, none of which
groups anywhere but at the root.
-/

namespace WhereEditor.Draft

inductive Action where
  | add (position : Nat) (field : Option String)
  | delete (id : NodeId)
  | clear
  | setField (id : NodeId) (field : String)
  | setType (id : NodeId) (type : DataType)
  | setOperator (id : NodeId) (operator : Operator)
  | setValue (id : NodeId) (value : Value)
  | setCombinator (id : NodeId) (combinator : Combinator)
  | select (id : NodeId) (selected : Bool)
  | group
  | ungroup (id : NodeId)
  | loadExample (partitionKey rowKey : String)
  | addRange (id : NodeId) (start stop : String) (isLocal : Bool)
  | setSchema (schema : Schema)

def attempt (draft : Draft) : Action → Except Error Draft
  | .add position field => .ok (draft.add position field)
  | .delete id => .ok (draft.delete id)
  | .clear => .ok draft.clear
  | .setField id field => draft.setField id field
  | .setType id type => draft.setType id type
  | .setOperator id operator => draft.setOperator id operator
  | .setValue id value => draft.setValue id value
  | .setCombinator id combinator => draft.setCombinator id combinator
  | .select id selected => .ok (draft.select id selected)
  | .group => .ok (draft.group?.getD draft)
  | .ungroup id => .ok (draft.ungroup id)
  | .loadExample partitionKey rowKey => .ok (draft.loadExample partitionKey rowKey)
  | .addRange id start stop isLocal => draft.addRange id start stop isLocal
  | .setSchema schema => .ok (draft.setSchema schema)

def act (draft : Draft) (action : Action) : Draft := (draft.attempt action).toOption.getD draft

def enter (clock : Clock) (draft : Draft) (line : String) : Draft :=
  (Shell.respond clock draft line).2.getD draft

def Action.Offered (api : Api) : Action → Prop
  | setType _ type => type ∈ DataType.options api
  | _ => True

inductive Step where
  | act (action : Action)
  | enter (clock : Clock) (line : String)

def take (draft : Draft) : Step → Draft
  | .act action => draft.act action
  | .enter clock line => draft.enter clock line

def after (settings : Settings) (steps : List Step) : Draft := steps.foldl take { settings }

/-! ## Lines as actions -/

def Leads (start final : Draft) : Prop :=
  ∃ actions : List Action, (∀ action ∈ actions, action.Offered start.api) ∧
    final = actions.foldl act start

theorem Leads.refl (draft : Draft) : Leads draft draft := ⟨[], by simp, rfl⟩

theorem leads_of_attempt {draft changed : Draft} (action : Action)
    (offered : action.Offered draft.api) (done : draft.attempt action = .ok changed) :
    Leads draft changed := by
  refine ⟨[action], by simpa using offered, ?_⟩
  rw [List.foldl_cons, List.foldl_nil, act, done]
  rfl

theorem leads_of_map_answer {draft changed : Draft} {reply : Reply} (action : Action)
    (offered : action.Offered draft.api)
    (done : (draft.attempt action).map Command.answer = .ok (reply, changed)) :
    Leads draft changed := by
  cases outcome : draft.attempt action with
  | error problem =>
      rw [outcome] at done
      exact absurd done (by simp [Except.map])
  | ok result =>
      rw [outcome] at done
      cases done
      exact leads_of_attempt action offered outcome

theorem leads_foldl_select (draft : Draft) (ids : List NodeId) (selected : Bool) :
    Leads draft (ids.foldl (fun draft id => draft.select id selected) draft) := by
  refine ⟨ids.map fun id => .select id selected, ?_, ?_⟩
  · intro action member
    obtain ⟨id, _, rfl⟩ := List.mem_map.mp member
    trivial
  · rw [List.foldl_map]
    rfl

theorem leads_of_run {clock : Clock} {draft changed : Draft} {command : Command}
    {reply : Reply} (done : command.run clock draft = .ok (reply, changed)) :
    Leads draft changed := by
  cases command with
  | add position field =>
      cases done
      exact leads_of_attempt (.add _ field) trivial rfl
  | delete id =>
      cases done
      exact leads_of_attempt (.delete id) trivial rfl
  | field id name => exact leads_of_map_answer (.setField id name) trivial done
  | type id name =>
      rw [Command.run] at done
      cases found : DataType.ofName? draft.api name with
      | none =>
          rw [found] at done
          exact absurd done (by simp [NameKind.require, bind, Except.bind])
      | some type =>
          rw [found] at done
          exact leads_of_map_answer (.setType id type) (DataType.mem_options_of_ofName? found) done
  | operator id operator =>
      exact leads_of_map_answer (.setOperator id operator) trivial done
  | value id text => exact leads_of_map_answer (.setValue id (.literal text)) trivial done
  | preset id window =>
      exact leads_of_map_answer (.setValue id (.preset window)) trivial done
  | range id start stop isLocal =>
      rw [Command.run] at done
      cases outcome : draft.addRange id start stop isLocal with
      | error problem =>
          rw [outcome] at done
          exact absurd done (by simp [bind, Except.bind])
      | ok result =>
          rw [outcome] at done
          cases done
          exact leads_of_attempt (.addRange id start stop isLocal) trivial outcome
  | combinator id combinator =>
      exact leads_of_map_answer (.setCombinator id combinator) trivial done
  | select ids =>
      cases done
      exact leads_foldl_select draft ids true
  | unselect ids =>
      cases done
      exact leads_foldl_select draft ids false
  | group =>
      cases grouped : draft.group? with
      | none =>
          rw [Command.run, grouped] at done
          cases done
          exact Leads.refl draft
      | some result =>
          rw [Command.run, grouped] at done
          cases done
          refine leads_of_attempt .group trivial ?_
          rw [attempt, grouped]
          rfl
  | ungroup id =>
      cases done
      exact leads_of_attempt (.ungroup id) trivial rfl
  | list =>
      cases done
      exact Leads.refl draft
  | compile dialect columns =>
      rw [Command.run] at done
      cases written : draft.compile (dialect.getD (.forApi draft.api)) { clock, columns } with
      | error problem =>
          rw [written] at done
          exact absurd done (by simp [bind, Except.bind])
      | ok query =>
          rw [written] at done
          cases done
          exact Leads.refl draft
  | sample partitionKey rowKey =>
      cases done
      exact leads_of_attempt (.loadExample partitionKey rowKey) trivial rfl
  | clear =>
      cases done
      exact leads_of_attempt .clear trivial rfl
  | help =>
      cases done
      exact Leads.refl draft
  | quit =>
      cases done
      exact Leads.refl draft

theorem leads_enter (clock : Clock) (draft : Draft) (line : String) :
    Leads draft (draft.enter clock line) := by
  rw [enter, Shell.respond]
  split
  · exact Leads.refl draft
  · exact Leads.refl draft
  · split
    · exact Leads.refl draft
    · rename_i done
      exact leads_of_run done
    · exact Leads.refl draft

/-! ## Actions as edits -/

theorem edit_eq_ok {draft changed : Draft} {id : NodeId} {change : Clause → Except Error Clause}
    (done : draft.edit id change = .ok changed) :
    ∃ clause body, draft.tree.clause? id = some clause ∧ change clause = .ok body ∧
      changed = { draft with tree := draft.tree.updateClause id fun _ => body } := by
  rw [edit] at done
  cases found : draft.tree.clause? id with
  | none =>
      rw [found] at done
      exact absurd done (by simp)
  | some clause =>
      rw [found] at done
      cases outcome : change clause with
      | error problem =>
          exact absurd done (by simp [outcome, bind, Except.bind])
      | ok body =>
          simp only [outcome] at done
          cases done
          exact ⟨clause, body, rfl, outcome, rfl⟩

def Reaches (start final : Tree) : Prop :=
  ∃ edits : List Tree.Edit, (∀ edit ∈ edits, edit.Outermost) ∧ final = edits.foldl Tree.apply start

namespace Reaches

theorem refl (tree : Tree) : Reaches tree tree := ⟨[], by simp, rfl⟩

theorem trans {start middle final : Tree} (first : Reaches start middle)
    (second : Reaches middle final) : Reaches start final := by
  obtain ⟨before, outermostBefore, rfl⟩ := first
  obtain ⟨later, outermostLater, rfl⟩ := second
  refine ⟨before ++ later, ?_, by rw [List.foldl_append]⟩
  intro edit member
  rcases List.mem_append.mp member with early | late
  · exact outermostBefore edit early
  · exact outermostLater edit late

theorem apply (tree : Tree) (edit : Tree.Edit) (outermost : edit.Outermost) :
    Reaches tree (tree.apply edit) :=
  ⟨[edit], by simpa using outermost, rfl⟩

theorem edit {draft changed : Draft} {id : NodeId} {change : Clause → Except Error Clause}
    (done : draft.edit id change = .ok changed) : Reaches draft.tree changed.tree := by
  obtain ⟨clause, body, _, _, rfl⟩ := edit_eq_ok done
  exact apply draft.tree (.change id fun _ => body) trivial

theorem append {start tree : Tree} (reached : Reaches start tree) (body : Clause) :
    Reaches start (tree.append NodeId.root body) :=
  reached.trans (apply tree (.insertBefore NodeId.root none body) trivial)

theorem add (draft : Draft) (position : Nat) (field : Option String) :
    Reaches draft.tree (draft.add position field).tree :=
  apply draft.tree (.insertBefore _ _ _) trivial

end Reaches

theorem reaches_of_attempt {draft changed : Draft} {action : Action}
    (done : draft.attempt action = .ok changed) : Reaches draft.tree changed.tree := by
  cases action with
  | add position field =>
      cases done
      exact Reaches.add draft position field
  | delete id =>
      cases done
      rw [delete]
      split
      · exact Reaches.apply draft.tree (.delete id) trivial
      · exact Reaches.refl draft.tree
  | clear =>
      cases done
      have emptied := Reaches.apply draft.tree .clear trivial
      exact emptied.trans (Reaches.add { draft with tree := draft.tree.clear } 0 none)
  | setField id field => exact Reaches.edit done
  | setType id type => exact Reaches.edit done
  | setOperator id operator => exact Reaches.edit done
  | setValue id value => exact Reaches.edit done
  | setCombinator id combinator => exact Reaches.edit done
  | select id selected =>
      cases done
      exact Reaches.apply draft.tree (.change id _) trivial
  | group =>
      cases done
      have grouped : (draft.group?.getD draft).tree = draft.tree.apply (.group NodeId.root) := by
        rw [group?, Tree.apply]
        cases draft.tree.groupSelected? NodeId.root <;> rfl
      rw [grouped]
      exact Reaches.apply draft.tree (.group NodeId.root) rfl
  | ungroup id =>
      cases done
      rw [ungroup]
      cases if draft.tree.isGroup id then some id else draft.tree.parent? id with
      | none => exact Reaches.refl draft.tree
      | some group => exact Reaches.apply draft.tree (.ungroup group) trivial
  | loadExample partitionKey rowKey =>
      cases done
      have emptied := Reaches.apply draft.tree .clear trivial
      exact (emptied.append _).append _
  | addRange id start stop isLocal =>
      rw [attempt, addRange] at done
      split at done
      · exact absurd done (by simp)
      · split at done
        · cases done
          exact Reaches.trans (Reaches.apply draft.tree (.change id _) trivial)
            (Reaches.apply _ (.insertAfter id _) trivial)
        · exact absurd done (by simp)
  | setSchema schema =>
      cases done
      exact Reaches.refl draft.tree

theorem reaches_act (draft : Draft) (action : Action) :
    Reaches draft.tree (draft.act action).tree := by
  rw [act]
  cases outcome : draft.attempt action with
  | error problem => exact Reaches.refl draft.tree
  | ok changed => exact reaches_of_attempt outcome

theorem reaches_foldl_act (actions : List Action) (draft : Draft) :
    Reaches draft.tree (actions.foldl act draft).tree := by
  induction actions generalizing draft with
  | nil => exact Reaches.refl draft.tree
  | cons action later ih => exact (reaches_act draft action).trans (ih (draft.act action))

theorem reaches_take (draft : Draft) (step : Step) :
    Reaches draft.tree (draft.take step).tree := by
  cases step with
  | act action => exact reaches_act draft action
  | enter clock line =>
      obtain ⟨actions, _, same⟩ := leads_enter clock draft line
      rw [take, same]
      exact reaches_foldl_act actions draft

/-- Whatever is done to a draft, its tree is one that edits lead to, none of which groups anywhere
but at the root. -/
theorem reaches_foldl_take (steps : List Step) (draft : Draft) :
    Reaches draft.tree (steps.foldl take draft).tree := by
  induction steps generalizing draft with
  | nil => exact Reaches.refl draft.tree
  | cons step later ih => exact (reaches_take draft step).trans (ih (draft.take step))

theorem reaches_after (settings : Settings) (steps : List Step) :
    Reaches {} (after settings steps).tree := reaches_foldl_take steps { settings }

/-! ## The groups of a draft -/

theorem sound_after (settings : Settings) (steps : List Step) :
    (after settings steps).tree.Sound 2 := by
  obtain ⟨edits, outermost, same⟩ := reaches_after settings steps
  rw [same]
  exact Tree.Sound.empty.foldl_apply edits outermost

/-- After every run of operations and lines, and so after each step of it, every group but the root
has two items or more. -/
theorem two_le_length_children_after (settings : Settings) (steps : List Step) {id : NodeId}
    (inner : id ≠ NodeId.root) (isGroup : (after settings steps).tree.isGroup id = true) :
    2 ≤ ((after settings steps).tree.children id).length := by
  obtain ⟨edits, outermost, same⟩ := reaches_after settings steps
  have sound : (edits.foldl Tree.apply {}).Sound 2 := Tree.Sound.empty.foldl_apply edits outermost
  rw [← same] at sound
  exact sound.le_length_children inner isGroup

/-- A pair that is grouped, next to a third clause. -/
theorem two_le_length_children_after_pair :
    let settings : Settings := .sample .tables
    let steps : List Step :=
      [.act (.add 0 none), .act (.add 1 none), .act (.add 2 none), .act (.select 1 true),
        .act (.select 2 true), .act .group]
    4 ≠ NodeId.root ∧ (after settings steps).tree.isGroup 4 = true ∧
      2 ≤ ((after settings steps).tree.children 4).length := by
  refine ⟨by decide, by decide, ?_⟩
  exact two_le_length_children_after _ _ (by decide) (by decide)

end WhereEditor.Draft
