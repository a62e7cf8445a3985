import Mathlib.Algebra.Ring.Nat
import Mathlib.Data.List.Forall2
import Mathlib.Data.List.ModifyLast
import Mathlib.Data.List.TakeWhile
import Mathlib.Logic.Relation
import Mathlib.Order.Defs.PartialOrder

/-!
Facts about lists, about requests that can fail and about ways along a relation, for items and errors
of any kind.
-/

namespace WhereEditor

variable {α β ε : Type}

/-! ## Where an item stands -/

theorem idxOf?_append_cons [BEq α] [LawfulBEq α] {before beyond : List α} {item : α}
    (absent : item ∉ before) : (before ++ item :: beyond).idxOf? item = some before.length := by
  refine List.idxOf?_eq_some_iff.mpr ⟨by simp, by simp, fun place early same => absent ?_⟩
  rw [List.getElem_append_left early] at same
  exact same ▸ List.getElem_mem early

theorem sublist_of_idxOf_lt [BEq α] [LawfulBEq α] {items : List α} {first second : α}
    (before : items.idxOf first < items.idxOf second) (member : second ∈ items) :
    [first, second].Sublist items := by
  have here : first ∈ items :=
    List.idxOf_lt_length_iff.mp (Nat.lt_of_lt_of_le before List.idxOf_le_length)
  have early : first ∈ items.take (items.idxOf second) :=
    (List.mem_take_iff_idxOf_lt here).mpr before
  have late : second ∈ items.drop (items.idxOf second) := by
    rw [List.drop_eq_getElem_cons (List.idxOf_lt_length_of_mem member), List.getElem_idxOf]
    exact List.mem_cons_self
  rw [← List.take_append_drop (items.idxOf second) items]
  exact (List.singleton_sublist.mpr early).append (List.singleton_sublist.mpr late)

theorem append_lt_append_iff [Preorder α] (before : List α) {first second : List α} :
    before ++ first < before ++ second ↔ first < second := by
  induction before with
  | nil => rfl
  | cons head before ih =>
      rw [List.cons_append, List.cons_append, List.cons_lt_cons_iff, ih]
      simp

theorem insertIdx_between (before beyond : List α) (new : α) :
    (before ++ beyond).insertIdx before.length new = before ++ new :: beyond := by
  induction before with
  | nil => rfl
  | cons other later ih => exact congrArg (other :: ·) ih

theorem getElem?_padded (filler : α) {items : List α} {width index : Nat}
    (inside : index < items.length) (fits : items.length ≤ width) :
    (List.replicate (width - items.length) filler ++ items.reverse)[width - 1 - index]? =
      items[index]? := by
  rw [List.getElem?_append_right (by simp; omega), List.length_replicate,
    List.getElem?_reverse (by omega)]
  congr 1
  omega

theorem sum_take_add_le {lengths : List Nat} {index inside : Nat} (first : 1 ≤ inside)
    (last : inside ≤ lengths.getD index 0) : (lengths.take index).sum + inside ≤ lengths.sum := by
  induction lengths generalizing index with
  | nil => exact absurd (Nat.le_trans first last) (by simp)
  | cons length later ih =>
      cases index with
      | zero =>
          have here : inside ≤ length := last
          rw [List.take_zero, List.sum_nil, List.sum_cons]
          omega
      | succ index =>
          have there := ih last
          rw [List.take_succ_cons, List.sum_cons, List.sum_cons]
          omega

theorem range'_append_range' {start middle stop : Nat} (first : start ≤ middle)
    (second : middle ≤ stop) :
    List.range' start (middle - start) ++ List.range' middle (stop - middle) =
      List.range' start (stop - start) := by
  have reached : middle = start + 1 * (middle - start) := by omega
  have total : stop - start = (middle - start) + (stop - middle) := by omega
  rw [total, ← List.range'_append, ← reached]

/-! ## The first and the last item -/

theorem modifyHead_map [DecidableEq α] (items : List α) (distinct : items.Nodup)
    (frame : α → β) (change : β → β) :
    (items.map frame).modifyHead change =
      items.map fun item => if items.head? = some item then change (frame item) else frame item := by
  cases items with
  | nil => rfl
  | cons first others =>
      have fresh := (List.nodup_cons.mp distinct).1
      simp only [List.map_cons, List.modifyHead_cons, List.head?_cons, if_pos, List.cons.injEq,
        true_and]
      refine List.map_congr_left fun item member => ?_
      have other : ¬ some first = some item := fun same => fresh (Option.some.inj same ▸ member)
      exact (if_neg other).symm

theorem modifyLast_ne_nil {items : List α} (inhabited : items ≠ []) (change : α → α) :
    items.modifyLast change ≠ [] := by
  rcases List.eq_nil_or_concat items with rfl | ⟨others, last, rfl⟩
  · exact absurd rfl inhabited
  · rw [List.concat_eq_append, List.modifyLast_concat]
    exact List.concat_ne_nil _ _

theorem modifyLast_map [DecidableEq α] (items : List α) (distinct : items.Nodup)
    (frame : α → β) (change : β → β) :
    (items.map frame).modifyLast change =
      items.map fun item =>
        if items.getLast? = some item then change (frame item) else frame item := by
  rcases List.eq_nil_or_concat items with rfl | ⟨others, last, rfl⟩
  · rfl
  · rw [List.concat_eq_append] at distinct ⊢
    have fresh : last ∉ others := fun member =>
      (List.nodup_append.mp distinct).2.2 last member last (List.mem_singleton_self last) rfl
    rw [List.map_append, List.map_append, List.map_singleton, List.modifyLast_concat]
    simp only [List.getLast?_concat, List.map_singleton, if_pos]
    congr 1
    refine List.map_congr_left fun item member => ?_
    have other : ¬ some last = some item := fun same => fresh (Option.some.inj same ▸ member)
    exact (if_neg other).symm

/-! ## Runs of items that pass a test -/

theorem cut_at_first_failure (test : α → Bool) (items : List α) :
    items = items.takeWhile test ++ items.dropWhile test ∧
      (∀ item ∈ items.takeWhile test, test item = true) ∧
      ∀ item ∈ (items.dropWhile test).head?, test item = false := by
  refine ⟨List.takeWhile_append_dropWhile.symm, fun _ member => List.mem_takeWhile_imp member, ?_⟩
  intro item front
  have fails := List.head?_dropWhile_not test items
  rw [front] at fails
  exact fails

/-- The last item counts only where all items before it pass the test and it does too. -/
theorem length_takeWhile_dropLast {items : List α} (inhabited : items ≠ []) (test : α → Bool) :
    (items.takeWhile test).length =
      (items.dropLast.takeWhile test).length + if items.all test then 1 else 0 := by
  induction items with
  | nil => exact absurd rfl inhabited
  | cons item later ih =>
      cases later with
      | nil => cases holds : test item <;> simp [holds]
      | cons next further =>
          have onwards := ih (List.cons_ne_nil _ _)
          cases holds : test item with
          | false => simp [holds]
          | true =>
              rw [List.takeWhile_cons_of_pos holds, List.dropLast_cons_cons,
                List.takeWhile_cons_of_pos holds, List.all_cons, holds, Bool.true_and,
                List.length_cons, List.length_cons, onwards]
              omega

theorem length_takeWhile_replicate_append {test : α → Bool} {item : α} {later : List α}
    (passes : test item = true) (ends : ∀ next, later.head? = some next → test next = false)
    (count : Nat) : ((List.replicate count item ++ later).takeWhile test).length = count := by
  rw [List.takeWhile_append_of_pos fun other member => by
    rwa [List.eq_of_mem_replicate member], List.length_append, List.length_replicate]
  cases later with
  | nil => rfl
  | cons next others =>
      rw [List.takeWhile_cons_of_neg (by simp [ends next rfl]), List.length_nil, Nat.add_zero]

/-- Outside of the items that pass a test, where these are neighbours, there are none. -/
theorem filter_eq_nil_of_cut {test : α → Bool} {items before beyond : List α}
    (cut : items = before ++ (items.filter test ++ beyond)) :
    before.filter test = [] ∧ beyond.filter test = [] := by
  have kept : (items.filter test).filter test = items.filter test :=
    List.filter_eq_self.mpr fun _ member => (List.mem_filter.mp member).2
  have length := congrArg (List.length ∘ List.filter test) cut
  simp only [Function.comp_apply, List.filter_append, kept, List.length_append] at length
  exact ⟨List.eq_nil_of_length_eq_zero (by omega), List.eq_nil_of_length_eq_zero (by omega)⟩

theorem eq_toList_of_perm {items : List α} {answer : Option α}
    (perm : items.Perm answer.toList) : items = answer.toList := by
  cases answer with
  | none => exact perm.eq_nil
  | some value => exact perm.eq_singleton

/-! ## Requests in steps -/

theorem map_eq_ok_iff {outcome : Except ε α} {change : α → β} {result : β} :
    outcome.map change = .ok result ↔ ∃ value, outcome = .ok value ∧ change value = result := by
  cases outcome with
  | error problem => simp [Except.map]
  | ok value => simp [Except.map]

theorem bind_of_eq_ok {first : Except ε α} {value : α} (same : first = .ok value)
    (next : α → Except ε β) : first >>= next = next value := by
  rw [same]
  rfl

theorem exists_ok_of_bind {first : Except ε α} {next : α → Except ε β} {result : β}
    (done : first >>= next = .ok result) :
    ∃ value, first = .ok value ∧ next value = .ok result := by
  cases first with
  | error problem => cases done
  | ok value => exact ⟨value, rfl, done⟩

/-! ## One request for each item -/

section

variable {m : Type → Type} [Monad m] [LawfulMonad m] {step other : α → m β} {items : List α}

theorem mapM_congr (same : ∀ item ∈ items, step item = other item) :
    items.mapM step = items.mapM other := by
  induction items with
  | nil => rfl
  | cons item later ih =>
      obtain ⟨here, further⟩ := List.forall_mem_cons.mp same
      rw [List.mapM_cons, List.mapM_cons, here, ih further]

theorem mapM_eq_pure_of_forall₂ {found : List β}
    (each : List.Forall₂ (fun item value => step item = pure value) items found) :
    items.mapM step = pure found := by
  induction each with
  | nil => rw [List.mapM_nil]
  | cons first _ ih => rw [List.mapM_cons, first, ih, pure_bind, pure_bind]

theorem mapM_eq_pure_map {plain : α → β} (each : ∀ item ∈ items, step item = pure (plain item)) :
    items.mapM step = pure (items.map plain) :=
  mapM_eq_pure_of_forall₂ (List.forall₂_map_right_iff.mpr (List.forall₂_same.mpr each))

end

variable {step : α → Except ε β} {items : List α}

theorem mapM_eq_ok_iff {found : List β} :
    items.mapM step = .ok found ↔
      List.Forall₂ (fun item value => step item = .ok value) items found := by
  refine ⟨fun done => ?_, mapM_eq_pure_of_forall₂⟩
  induction items generalizing found with
  | nil => cases done; exact .nil
  | cons item later ih =>
      rw [List.mapM_cons] at done
      obtain ⟨value, here, done⟩ := exists_ok_of_bind done
      obtain ⟨values, further, done⟩ := exists_ok_of_bind done
      cases done
      exact .cons here (ih further)

theorem mapM_eq_error {problem : ε} (failed : items.mapM step = .error problem) :
    ∃ (before : List α) (item : α) (after : List α) (values : List β),
      items = before ++ item :: after ∧ before.mapM step = .ok values ∧ step item = .error problem := by
  induction items with
  | nil => cases failed
  | cons item later ih =>
      rw [List.mapM_cons] at failed
      cases here : step item with
      | error earlier =>
          rw [here] at failed
          cases failed
          exact ⟨[], item, later, [], rfl, rfl, here⟩
      | ok value =>
          rw [here] at failed
          cases further : later.mapM step with
          | error earlier =>
              rw [further] at failed
              cases failed
              obtain ⟨before, culprit, after, values, rfl, well, fails⟩ := ih further
              refine ⟨item :: before, culprit, after, value :: values, rfl, ?_, fails⟩
              rw [List.mapM_cons, here, well]
              rfl
          | ok values =>
              rw [further] at failed
              cases failed

/-! ## Ways up -/

open Relation

/-- A way up that never branches and ends at a node without a parent meets no cycle. -/
theorem not_transGen_self {up : α → α → Prop} {node top : α}
    (unique : ∀ {node first second}, up node first → up node second → first = second)
    (stops : ∀ node, ¬ up top node) (reach : ReflTransGen up node top) : ¬ TransGen up node node := by
  induction reach using ReflTransGen.head_induction_on with
  | refl =>
      intro cycle
      obtain ⟨next, step, _⟩ := TransGen.head'_iff.mp cycle
      exact stops next step
  | head step _ ih =>
      intro cycle
      obtain ⟨next, other, back⟩ := TransGen.head'_iff.mp cycle
      rw [unique other step] at back
      exact ih (TransGen.tail' back step)

end WhereEditor
