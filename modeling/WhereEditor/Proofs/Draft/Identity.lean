import WhereEditor.Proofs.Draft.Action
import WhereEditor.Proofs.Tree.Identity

/-!
The ids of a draft. Main statement: along any run of edits, operations and lines, also one that
starts over, no id is given out twice, no node comes back, and an id names a clause or a group for
good.
-/

namespace WhereEditor.Draft

def given (draft : Draft) : List Step → List NodeId
  | [] => []
  | step :: later => draft.tree.newcomers (draft.take step).tree ++ (draft.take step).given later

/-- New clauses and groups get the next id, and the second clause of an example the one after. -/
structure NumbersNext (draft : Draft) : Prop where
  add : ∀ position field, draft.tree.newcomers (draft.add position field).tree = [draft.tree.next] ∧
    ((draft.add position field).tree.clause? draft.tree.next).isSome = true
  addRange : ∀ id start stop isLocal changed, draft.addRange id start stop isLocal = .ok changed →
    draft.tree.newcomers changed.tree = [draft.tree.next] ∧
      (changed.tree.clause? draft.tree.next).isSome = true
  group : ∀ grouped, draft.group? = some grouped →
    draft.tree.newcomers grouped.tree = [draft.tree.next] ∧
      grouped.tree.isGroup draft.tree.next = true
  clear : draft.clear.tree.row.ids = [draft.tree.next]
  loadExample : ∀ partitionKey rowKey, (draft.loadExample partitionKey rowKey).tree.row.ids =
    [draft.tree.next, draft.tree.next + 1]

def Step.StartsOver : Step → Prop
  | act .clear => True
  | act (.loadExample _ _) => True
  | act _ => False
  | enter _ line => match Command.ofLine? line with
    | .ok (some .clear) => True
    | .ok (some (.sample _ _)) => True
    | _ => False

/-! ## One step -/

theorem ids_clear (draft : Draft) : draft.clear.tree.row.ids = [draft.tree.next] := rfl

theorem ids_loadExample (draft : Draft) (partitionKey rowKey : String) :
    (draft.loadExample partitionKey rowKey).tree.row.ids =
      [draft.tree.next, draft.tree.next + 1] := rfl

theorem take_of_startsOver {step : Step} (restarts : step.StartsOver) (draft : Draft) :
    draft.take step = draft.clear ∨
      ∃ partitionKey rowKey, draft.take step = draft.loadExample partitionKey rowKey := by
  cases step with
  | act action =>
      cases action with
      | clear => exact .inl rfl
      | loadExample partitionKey rowKey => exact .inr ⟨partitionKey, rowKey, rfl⟩
      | _ => exact restarts.elim
  | enter clock line =>
      simp only [Step.StartsOver] at restarts
      rw [take, enter, Shell.respond]
      split at restarts
      · rename_i read
        exact .inl (by rw [read]; rfl)
      · rename_i partitionKey rowKey read
        exact .inr ⟨partitionKey, rowKey, by rw [read]; rfl⟩
      · exact restarts.elim

theorem le_of_startsOver {draft : Draft} {step : Step} (restarts : step.StartsOver) {id : NodeId}
    (member : id ∈ (draft.take step).tree.row.ids) : draft.tree.next ≤ id := by
  rcases take_of_startsOver restarts draft with same | ⟨partitionKey, rowKey, same⟩
  · rw [same, ids_clear, List.mem_singleton] at member
    exact Nat.le_of_eq member.symm
  · rw [same, ids_loadExample] at member
    rcases List.mem_cons.mp member with first | second
    · exact Nat.le_of_eq first.symm
    · exact List.mem_singleton.mp second ▸ Nat.le_succ _

section Reached

variable {draft : Draft} {edits : List Tree.Edit}

theorem numbersNext (reached : draft.tree = Tree.after edits) : draft.NumbersNext where
  add := by
    intro position field
    have fresh : draft.tree.NumbersNext := reached ▸ Tree.numbersNext_after edits
    obtain ⟨new, clause⟩ := fresh.insertBefore NodeId.root _ _
    exact ⟨new, Option.isSome_of_eq_some clause⟩
  addRange := by
    intro id start stop isLocal changed done
    rw [addRange] at done
    split at done
    · exact absurd done (by simp)
    · rename_i clause _
      split at done
      · cases done
        -- The lower bound stays under its id, so that only the upper one is new.
        let lower : Tree.Edit := .change id fun _ => clause.lowerBound start isLocal
        have fresh : (draft.tree.apply lower).NumbersNext := by
          have same : draft.tree.apply lower = Tree.after (edits ++ [lower]) := by
            rw [reached]
            exact Tree.foldl_after edits [lower]
          exact same ▸ Tree.numbersNext_after (edits ++ [lower])
        obtain ⟨new, upper⟩ := fresh.insertAfter id (clause.upperBound stop isLocal)
        rw [Tree.apply, Tree.newcomers_updateClause] at new
        exact ⟨new, Option.isSome_of_eq_some upper⟩
      · exact absurd done (by simp)
  group := by
    intro grouped done
    have fresh : draft.tree.NumbersNext := reached ▸ Tree.numbersNext_after edits
    obtain ⟨tree, wrapped, rfl⟩ := Option.map_eq_some_iff.mp done
    exact fresh.group NodeId.root tree wrapped
  clear := ids_clear draft
  loadExample := ids_loadExample draft

/-! ## Runs of steps -/

theorem precedes_foldl_take (reached : draft.tree = Tree.after edits) (steps : List Step) :
    draft.tree.Precedes (steps.foldl take draft).tree := by
  obtain ⟨further, _, same⟩ := reaches_foldl_take steps draft
  rw [same]
  exact Tree.Precedes.of_after reached further

theorem exists_after_take (reached : draft.tree = Tree.after edits) (step : Step) :
    ∃ further, (draft.take step).tree = Tree.after further := by
  obtain ⟨more, _, same⟩ := reaches_take draft step
  exact ⟨edits ++ more, by rw [same, reached, Tree.foldl_after]⟩

theorem bounds_of_mem_newcomers (reached : draft.tree = Tree.after edits) {step : Step}
    {id : NodeId} (member : id ∈ draft.tree.newcomers (draft.take step).tree) :
    draft.tree.next ≤ id ∧ id < (draft.take step).tree.next := by
  obtain ⟨further, same⟩ := exists_after_take reached step
  have sound : (draft.take step).tree.Sound := same ▸ Tree.sound_after further
  have onwards := precedes_foldl_take reached [step]
  exact ⟨onwards.le_of_mem_newcomers sound member,
    (sound.numbered id (Tree.mem_newcomers.mp member).1).2⟩

theorem bounds_of_mem_given (reached : draft.tree = Tree.after edits) {steps : List Step}
    {id : NodeId} (member : id ∈ draft.given steps) :
    draft.tree.next ≤ id ∧ id < (steps.foldl take draft).tree.next := by
  induction steps generalizing draft edits with
  | nil => exact absurd member List.not_mem_nil
  | cons step later ih =>
      obtain ⟨further, same⟩ := exists_after_take reached step
      have onwards := (precedes_foldl_take reached [step]).next_le
      rcases List.mem_append.mp member with here | there
      · obtain ⟨least, below⟩ := bounds_of_mem_newcomers reached here
        exact ⟨least, Nat.lt_of_lt_of_le below (precedes_foldl_take same later).next_le⟩
      · obtain ⟨least, below⟩ := ih same there
        exact ⟨Nat.le_trans onwards least, below⟩

theorem nodup_given (reached : draft.tree = Tree.after edits) (steps : List Step) :
    (draft.given steps).Nodup := by
  induction steps generalizing draft edits with
  | nil => exact List.nodup_nil
  | cons step later ih =>
      obtain ⟨further, same⟩ := exists_after_take reached step
      have sound : (draft.take step).tree.Sound := same ▸ Tree.sound_after further
      refine List.nodup_append.mpr ⟨sound.distinct.filter _, ih same, ?_⟩
      rintro id here _ there rfl
      have below := (bounds_of_mem_newcomers reached here).2
      exact Nat.not_le_of_lt below (bounds_of_mem_given same there).1

theorem eq_root_of_contains (reached : draft.tree = Tree.after edits) {step : Step}
    (restarts : step.StartsOver) {further : List Step} {id : NodeId} (before : id < draft.tree.next)
    (live : ((step :: further).foldl take draft).tree.contains id = true) : id = NodeId.root := by
  obtain ⟨more, same⟩ := exists_after_take reached step
  have onwards := precedes_foldl_take same further
  have given := Nat.lt_of_lt_of_le before (precedes_foldl_take reached [step]).next_le
  by_contra inner
  have absent : (draft.take step).tree.contains id = false := by
    rw [Bool.eq_false_iff, ne_eq, Tree.contains_iff]
    exact fun there => there.elim inner fun member =>
      Nat.not_le_of_lt before (le_of_startsOver restarts member)
  rw [List.foldl_cons, onwards.gone id given absent] at live
  exact absurd live (by simp)

end Reached

/-- Along every run of edits, in the tree as in the slots, and along every run of operations and
lines on a draft: the ids that come in are all different, new clauses and groups get the next one,
and at every later moment a node that is gone is still gone and one that is there is a clause if it
was one and a group if it was one. Where a run starts over, only the root is left of what there
was. -/
theorem given_once (edits further : List Tree.Edit) (settings : Settings)
    (steps laterSteps : List Step) :
    let tree := Tree.after edits
    let draft := after settings steps
    (Tree.given {} edits = List.range' 1 (tree.next - 1) ∧ tree.NumbersNext ∧
      tree.Precedes (Tree.after (edits ++ further)) ∧
      (∀ id < tree.next, (Tree.after (edits ++ .clear :: further)).contains id = true →
        id = NodeId.root) ∧
      (Arena.after edits).Precedes (Arena.after (edits ++ further)) ∧
      (Arena.after edits).next = tree.next ∧ (Arena.after edits).view = tree.view) ∧
    ((given { settings } steps).Nodup ∧ draft.NumbersNext ∧
      draft.tree.Precedes (after settings (steps ++ laterSteps)).tree ∧
      (∀ step : Step, step.StartsOver → ∀ id < draft.tree.next,
        (after settings (steps ++ step :: laterSteps)).tree.contains id = true →
          id = NodeId.root)) := by
  intro tree draft
  obtain ⟨reaching, _, reached⟩ := reaches_after settings steps
  have represents := Tree.represents_after edits
  have started : ({ settings } : Draft).tree = Tree.after [] := rfl
  refine ⟨⟨Tree.Sound.empty.given_eq edits, Tree.numbersNext_after edits,
    Tree.precedes_after edits further, fun id before => Tree.eq_root_of_contains_after_clear before,
    Arena.precedes_after edits further, represents.size, represents.view_eq (Tree.sound_after edits)⟩,
    nodup_given started steps, numbersNext reached, ?_, ?_⟩
  · rw [after, List.foldl_append, ← after]
    exact precedes_foldl_take reached laterSteps
  · intro step restarts id before live
    rw [after, List.foldl_append, ← after] at live
    exact eq_root_of_contains reached restarts before live

/-- A pair that is grouped, and whose group is gone when the draft starts over. -/
theorem given_once_restart :
    let settings : Settings := .sample .tables
    let steps : List Step :=
      [.act (.add 0 none), .act (.add 1 none), .act (.select 1 true), .act (.select 2 true),
        .act .group]
    given { settings } steps = [1, 2, 3] ∧ (Step.act .clear).StartsOver ∧
      3 < (after settings steps).tree.next ∧ (after settings steps).tree.isGroup 3 = true ∧
      (after settings (steps ++ [.act .clear])).tree.contains 3 = false := by
  intro settings steps
  have started : (Step.act .clear).StartsOver := trivial
  have before : 3 < (after settings steps).tree.next := by decide
  refine ⟨by decide, started, before, by decide, ?_⟩
  obtain ⟨_, _, _, _, restarted⟩ := given_once [] [] settings steps []
  rw [Bool.eq_false_iff]
  intro there
  exact absurd (restarted (.act .clear) started 3 before there) (by decide)

end WhereEditor.Draft
