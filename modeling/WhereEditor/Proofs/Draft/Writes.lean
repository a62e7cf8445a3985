import WhereEditor.Proofs.Draft.Action
import WhereEditor.Proofs.Tree.Clauses

/-!
The clauses that an action writes, as a relation, so that what holds of all clauses of a draft is
shown clause by clause. Main statement: whatever is kept by each clause that an action writes is kept
along a run of actions.
-/

namespace WhereEditor.Draft

/-- A clause that an action puts into the tree, anew or in the place of one that is held there. -/
inductive Writes (draft : Draft) : Action → Clause → Prop
  | blank {position} : draft.Writes (.add position none) (.blank draft.api)
  | named {position field} : draft.Writes (.add position (some field))
      ((Clause.blank draft.api).setField draft.api draft.settings.schema field)
  | restart : draft.Writes .clear (.blank draft.api)
  | field {id field old} : (id, old) ∈ draft.tree.clauses →
      draft.Writes (.setField id field) (old.setField draft.api draft.settings.schema field)
  | type {id type old} : (id, old) ∈ draft.tree.clauses →
      draft.Writes (.setType id type) (old.setType type)
  | operator {id operator old} : (id, old) ∈ draft.tree.clauses →
      draft.Writes (.setOperator id operator) { old with operator }
  | value {id value old changed} : (id, old) ∈ draft.tree.clauses →
      old.setValue? value = some changed → draft.Writes (.setValue id value) changed
  | combinator {id combinator old} : (id, old) ∈ draft.tree.clauses →
      draft.Writes (.setCombinator id combinator)
        { old with
          combinator := if draft.api = .cassandra ∧ combinator = .or then .and else combinator }
  | mark {id selected old} : (id, old) ∈ draft.tree.clauses →
      draft.Writes (.select id selected) { old with selected }
  | unmark {id old} : (id, old) ∈ draft.tree.clauses →
      draft.Writes .group { old with selected := false }
  | partitionKey {partitionKey rowKey} : draft.Writes (.loadExample partitionKey rowKey)
      (.literal .and Field.partitionKey (.stringFor draft.api) .equal partitionKey)
  | rowKey {partitionKey rowKey} : draft.Writes (.loadExample partitionKey rowKey)
      (.literal .and Field.rowKey (.stringFor draft.api) .equal rowKey)
  | lower {id start stop isLocal old} : (id, old) ∈ draft.tree.clauses →
      old.type.isDateTime = true →
      draft.Writes (.addRange id start stop isLocal) (old.lowerBound start isLocal)
  | upper {id start stop isLocal old} : (id, old) ∈ draft.tree.clauses →
      old.type.isDateTime = true →
      draft.Writes (.addRange id start stop isLocal) (old.upperBound stop isLocal)

variable {draft changed : Draft} {action : Action} {entry : NodeId × Clause}

theorem mem_clauses_add {position : Nat} {field : Option String}
    (member : entry ∈ (draft.add position field).tree.clauses) :
    entry.2 = field.elim (.blank draft.api)
        ((Clause.blank draft.api).setField draft.api draft.settings.schema) ∨
      entry ∈ draft.tree.clauses := by
  refine (Tree.mem_clauses_insertBefore member).imp_left ?_
  rintro rfl
  rfl

theorem mem_clauses_edit {id : NodeId} {change : Clause → Except Error Clause}
    (done : draft.edit id change = .ok changed) (member : entry ∈ changed.tree.clauses) :
    entry ∈ draft.tree.clauses ∨
      ∃ old, (id, old) ∈ draft.tree.clauses ∧ change old = .ok entry.2 := by
  obtain ⟨old, body, found, outcome, rfl⟩ := edit_eq_ok done
  refine (Tree.mem_clauses_updateClause member).imp_right ?_
  rintro ⟨_, _, rfl⟩
  exact ⟨old, Forest.mem_clauses_of_clause? found, outcome⟩

theorem not_mem_clauses_clear (tree : Tree) : entry ∉ tree.clear.clauses := List.not_mem_nil

/-- A clause is in the tree after an action if it was there before or the action writes it. -/
theorem mem_clauses_attempt (done : draft.attempt action = .ok changed)
    (member : entry ∈ changed.tree.clauses) :
    entry ∈ draft.tree.clauses ∨ draft.Writes action entry.2 := by
  cases action with
  | add position field =>
      cases done
      rcases mem_clauses_add member with written | held
      · rw [written]
        cases field with
        | none => exact .inr .blank
        | some field => exact .inr .named
      · exact .inl held
  | delete id =>
      cases done
      rw [delete] at member
      split at member
      · exact .inl ((Forest.clauses_erase_sublist _ id).subset member)
      · exact .inl member
  | clear =>
      cases done
      rcases mem_clauses_add member with written | held
      · rw [written]
        exact .inr .restart
      · exact absurd held (not_mem_clauses_clear draft.tree)
  | setField id field =>
      refine (mem_clauses_edit done member).imp_right ?_
      rintro ⟨old, held, written⟩
      exact Except.ok.inj written ▸ .field held
  | setType id type =>
      refine (mem_clauses_edit done member).imp_right ?_
      rintro ⟨old, held, written⟩
      exact Except.ok.inj written ▸ .type held
  | setOperator id operator =>
      refine (mem_clauses_edit done member).imp_right ?_
      rintro ⟨old, held, written⟩
      exact Except.ok.inj written ▸ .operator held
  | setValue id value =>
      refine (mem_clauses_edit done member).imp_right ?_
      rintro ⟨old, held, written⟩
      cases accepted : old.setValue? value with
      | none => exact absurd written (by simp [accepted])
      | some body =>
          simp only [accepted] at written
          exact .value held (accepted.trans (congrArg some (Except.ok.inj written)))
  | setCombinator id combinator =>
      refine (mem_clauses_edit done member).imp_right ?_
      rintro ⟨old, held, written⟩
      exact Except.ok.inj written ▸ .combinator held
  | select id selected =>
      cases done
      refine (Tree.mem_clauses_updateClause member).imp_right ?_
      rintro ⟨old, held, rfl⟩
      exact .mark held
  | group =>
      cases done
      rw [group?] at member
      cases grouped : draft.tree.groupSelected? NodeId.root with
      | none =>
          rw [grouped] at member
          exact .inl member
      | some tree =>
          rw [grouped] at member
          have marks : entry ∈ tree.clauses := member
          rw [Tree.clauses_groupSelected? grouped] at marks
          obtain ⟨⟨id, old⟩, held, rfl⟩ := List.mem_map.mp marks
          exact .inr (.unmark held)
  | ungroup id =>
      cases done
      rw [ungroup] at member
      generalize (if draft.tree.isGroup id then some id else draft.tree.parent? id) = group at member
      cases group with
      | none => exact .inl member
      | some group =>
          have same : entry ∈ (draft.tree.ungroup group).clauses := member
          rw [Tree.clauses_ungroup] at same
          exact .inl same
  | loadExample partitionKey rowKey =>
      cases done
      rcases Tree.mem_clauses_append member with rfl | held
      · exact .inr .rowKey
      · rcases Tree.mem_clauses_append held with rfl | older
        · exact .inr .partitionKey
        · exact absurd older (not_mem_clauses_clear draft.tree)
  | addRange id start stop isLocal =>
      rw [attempt, addRange] at done
      split at done
      · exact absurd done (by simp)
      · rename_i old found
        have held := Forest.mem_clauses_of_clause? found
        split at done
        · rename_i dated
          cases done
          rcases Tree.mem_clauses_insertAfter member with rfl | narrowed
          · exact .inr (.upper held dated)
          · refine (Tree.mem_clauses_updateClause narrowed).imp_right ?_
            rintro ⟨_, _, rfl⟩
            exact .lower held dated
        · exact absurd done (by simp)
  | setSchema schema =>
      cases done
      exact .inl member

theorem api_attempt (done : draft.attempt action = .ok changed) : changed.api = draft.api := by
  cases action with
  | setField | setType | setOperator | setValue | setCombinator =>
      obtain ⟨_, _, _, _, rfl⟩ := edit_eq_ok done
      rfl
  | delete id =>
      cases done
      rw [delete]
      split
      · rfl
      · rfl
  | group =>
      cases done
      rw [group?]
      cases draft.tree.groupSelected? NodeId.root with
      | none => rfl
      | some tree => rfl
  | addRange id start stop isLocal =>
      rw [attempt, addRange] at done
      split at done
      · exact absurd done (by simp)
      · split at done
        · cases done
          rfl
        · exact absurd done (by simp)
  | add | clear | select | ungroup | loadExample | setSchema =>
      cases done
      rfl

theorem api_act (draft : Draft) (action : Action) : (draft.act action).api = draft.api := by
  rw [act]
  cases outcome : draft.attempt action with
  | error problem => rfl
  | ok changed => exact api_attempt outcome

theorem mem_clauses_act (member : entry ∈ (draft.act action).tree.clauses) :
    entry ∈ draft.tree.clauses ∨ draft.Writes action entry.2 := by
  rw [act] at member
  cases outcome : draft.attempt action with
  | error problem =>
      rw [outcome] at member
      exact .inl member
  | ok changed =>
      rw [outcome] at member
      exact mem_clauses_attempt outcome member

structure Throughout (api : Api) (motive : Clause → Prop) (draft : Draft) : Prop where
  api_eq : draft.api = api
  clauses : ∀ entry ∈ draft.tree.clauses, motive entry.2

namespace Throughout

variable {api : Api} {motive : Clause → Prop} {allowed : Action → Prop}
  (kept : ∀ (draft : Draft) (action : Action) (clause : Clause), draft.Throughout api motive →
    allowed action → draft.Writes action clause → motive clause)
include kept

theorem act (all : draft.Throughout api motive) (may : allowed action) :
    (draft.act action).Throughout api motive := by
  refine ⟨(api_act draft action).trans all.api_eq, ?_⟩
  intro entry member
  rcases mem_clauses_act member with held | written
  · exact all.clauses entry held
  · exact kept draft action entry.2 all may written

theorem foldl_act (actions : List Action) (may : ∀ action ∈ actions, allowed action)
    (all : draft.Throughout api motive) : (actions.foldl Draft.act draft).Throughout api motive := by
  induction actions generalizing draft with
  | nil => exact all
  | cons action later ih =>
      obtain ⟨here, further⟩ := List.forall_mem_cons.mp may
      exact ih further (all.act kept here)

/-- What is kept by each clause that an action writes holds of all clauses after a run, if the run
keeps to the actions that are allowed and lines are: they set types from those offered only. -/
theorem after {settings : Settings} (same : settings.api = api)
    (lines : ∀ action : Action, action.Offered api → allowed action) (steps : List Step)
    (may : ∀ action, .act action ∈ steps → allowed action) :
    (Draft.after settings steps).Throughout api motive := by
  have onwards : ∀ draft : Draft, draft.Throughout api motive →
      (steps.foldl take draft).Throughout api motive := by
    induction steps with
    | nil => exact fun draft all => all
    | cons step later ih =>
        intro draft all
        refine ih (fun action member => may action (List.mem_cons_of_mem _ member)) _ ?_
        cases step with
        | act action => exact all.act kept (may action List.mem_cons_self)
        | enter clock line =>
            -- A line is a run of actions itself, and the draft stays one for the same kind of table.
            obtain ⟨actions, offered, reached⟩ := leads_enter clock draft line
            rw [take, reached]
            refine all.foldl_act kept actions ?_
            intro action member
            exact lines action (all.api_eq ▸ offered action member)
  exact onwards { settings } ⟨same, fun entry member => absurd member List.not_mem_nil⟩

end Throughout

end WhereEditor.Draft
