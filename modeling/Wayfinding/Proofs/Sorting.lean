import Mathlib.Data.List.Basic
import Wayfinding.Proofs.Addressable
import Wayfinding.Proofs.Outside

namespace Wayfinding

namespace Tree

/-- The level with the listed items in front, each where it is listed first, and the others behind them as
they were. -/
def arranged (level : Tree) (order : List String) : Tree :=
  order.eraseDups.filterMap level.get? ++ level.filter fun item => item.id ∉ order

theorem firstOccurrences_filter (keep : String → Bool) (texts : List String) :
    (firstOccurrences texts).filter keep = firstOccurrences (texts.filter keep) := by
  induction texts with
  | nil => rfl
  | cons first rest ih =>
    rw [firstOccurrences]
    by_cases hk : keep first = true
    · rw [List.filter_cons_of_pos hk, List.filter_cons_of_pos hk, firstOccurrences, ← ih,
        List.filter_filter, List.filter_filter]
      simp only [Bool.and_comm]
    · rw [List.filter_cons_of_neg hk, List.filter_cons_of_neg hk, ← ih, List.filter_filter]
      refine List.filter_congr fun id _ => ?_
      by_cases he : id = first
      · simp [he, hk]
      · simp [he]

theorem firstOccurrences_eq (texts : List String) : firstOccurrences texts = texts.eraseDups := by
  match texts with
  | [] => rfl
  | first :: rest =>
    have ih := firstOccurrences_eq (rest.filter fun id => !id == first)
    rw [List.eraseDups_cons, ← ih, ← firstOccurrences_filter, firstOccurrences]
    congr 2
    funext id
    by_cases he : id = first <;> simp [he]
termination_by texts.length
decreasing_by exact Nat.lt_succ_of_le (List.length_filter_le _ _)

theorem eraseDups_filter (keep : String → Bool) (texts : List String) :
    (texts.filter keep).eraseDups = texts.eraseDups.filter keep := by
  rw [← firstOccurrences_eq, ← firstOccurrences_filter, firstOccurrences_eq]

theorem eraseDups_of_nodup {texts : List String} (h : texts.Nodup) : texts.eraseDups = texts := by
  induction texts with
  | nil => rfl
  | cons first rest ih =>
    obtain ⟨hnew, hrest⟩ := List.nodup_cons.mp h
    have hall : (rest.filter fun id => !id == first) = rest := by
      refine List.filter_eq_self.mpr fun id hm => ?_
      have hne : id ≠ first := ne_of_mem_of_not_mem hm hnew
      simp [hne]
    rw [List.eraseDups_cons, hall, ih hrest]

theorem sortingFor_eq (level : Tree) (order : List String) :
    level.sortingFor order = order.eraseDups.filter (· ∈ level.ids) := by
  rw [sortingFor, ← firstOccurrences_filter, firstOccurrences_eq]

theorem sort_cons (id : String) (rest : List String) (level : Tree) :
    sort (id :: rest) level = (level.get? id).toList ++ sort rest (level.without id) := by
  rw [sort]
  cases h : level.get? id with
  | none => simp [without_of_get?_none h]
  | some item => rfl

/-- The item that is listed first is taken out of the level for all that follows. -/
theorem arranged_cons {level : Tree} (hn : level.ids.Nodup) (id : String) (rest : List String) :
    level.arranged (id :: rest) = (level.get? id).toList ++ (level.without id).arranged rest := by
  have hlater : (rest.filter fun other => !other == id).eraseDups.filterMap level.get? =
      rest.eraseDups.filterMap (level.without id).get? := by
    rw [eraseDups_filter, List.filterMap_filter]
    refine List.filterMap_congr fun other _ => ?_
    by_cases he : other = id <;> simp [get?_without hn, he]
  have hothers : (level.filter fun item => item.id ∉ id :: rest) =
      (level.without id).filter fun item => item.id ∉ rest := by
    rw [without_eq_filter hn, List.filter_filter]
    refine List.filter_congr fun item _ => ?_
    simp [not_or, Bool.and_comm]
  rw [arranged, arranged, List.eraseDups_cons, List.filterMap_cons, hlater, hothers]
  cases level.get? id <;> simp

/-- Items taken out one by one leave what was not named. -/
theorem sort_eq_arranged {level : Tree} (hn : level.ids.Nodup) (order : List String) :
    sort order level = level.arranged order := by
  induction order generalizing level with
  | nil =>
    have hall : (level.filter fun item => item.id ∉ []) = level := List.filter_eq_self.mpr (by simp)
    exact hall.symm
  | cons id rest ih =>
    have hrest : (level.without id).ids.Nodup := hn.sublist ((without_sublist level id).map Item.id)
    rw [sort_cons, arranged_cons hn, ih hrest]

/-- Repetitions, and IDs that the level does not have, are no part of an order. -/
theorem arranged_sortingFor (level : Tree) (order : List String) :
    level.arranged (level.sortingFor order) = level.arranged order := by
  have hnamed : (level.sortingFor order).filterMap level.get? = order.eraseDups.filterMap level.get? := by
    rw [sortingFor_eq, List.filterMap_filter]
    refine List.filterMap_congr fun id _ => ?_
    by_cases hm : id ∈ level.ids
    · simp [hm]
    · simp [hm, get?_eq_none.mpr hm]
  have hothers : (level.filter fun item => item.id ∉ level.sortingFor order) =
      level.filter fun item => item.id ∉ order := by
    refine List.filter_congr fun item hm => ?_
    have hid : item.id ∈ level.ids := List.mem_map_of_mem hm
    simp [mem_sortingFor, hid]
  rw [arranged, eraseDups_of_nodup (nodup_sortingFor level order), hnamed, hothers, arranged]

theorem sort_sortingFor {level : Tree} (hn : level.ids.Nodup) (order : List String) :
    sort (level.sortingFor order) level = level.arranged order := by
  rw [sort_eq_arranged hn, arranged_sortingFor]

theorem arranged_perm {level : Tree} (hn : level.ids.Nodup) (order : List String) :
    (level.arranged order).Perm level := by
  rw [← sort_sortingFor hn]
  exact sort_perm _ level

theorem ids_arranged {level : Tree} (hn : level.ids.Nodup) (order : List String) :
    (level.arranged order).ids =
      level.sortingFor order ++ level.ids.filter (· ∉ level.sortingFor order) := by
  rw [← sort_sortingFor hn]
  exact ids_sort hn (nodup_sortingFor level order) fun id hi => (mem_sortingFor.mp hi).2

theorem WellFormed.level {tree level : Tree} {path : String} (h : WellFormed tree)
    (found : tree.level path = .ok level) : WellFormed level := by
  rw [level_eq] at found
  split at found
  · rename_i hl
    cases found
    obtain ⟨_, _, hl⟩ := Option.bind_eq_some_iff.mp hl
    exact h.levelAt? hl
  · cases found

/-- The decision on the IDs is right about the items. -/
theorem wouldReorder_iff {level : Tree} (hn : level.ids.Nodup) (order : List String) :
    level.wouldReorder (level.sortingFor order) = true ↔ (level.arranged order).ids ≠ level.ids := by
  rw [ids_arranged hn, wouldReorder, decide_eq_true_eq]

theorem filterMap_get?_ids {level : Tree} (hn : level.ids.Nodup) : level.ids.filterMap level.get? = level := by
  rw [ids, List.filterMap_map]
  have hsome : level.filterMap (level.get? ∘ Item.id) = level.filterMap some :=
    List.filterMap_congr fun item hm => get?_of_mem hn hm
  rw [hsome, List.filterMap_some]

/-- A level whose IDs stand in the same order is the same level. -/
theorem eq_of_perm_of_ids {level level' : Tree} (hp : level'.Perm level) (hn : level.ids.Nodup)
    (h : level'.ids = level.ids) : level' = level := by
  have hget : level'.get? = level.get? := funext fun id => get?_of_perm hp.symm hn id
  rw [← filterMap_get?_ids (h ▸ hn : level'.ids.Nodup), h, hget, filterMap_get?_ids hn]

theorem arranged_of_ids {level : Tree} (hn : level.ids.Nodup) {order : List String}
    (h : (level.arranged order).ids = level.ids) : level.arranged order = level :=
  eq_of_perm_of_ids (arranged_perm hn order) hn h

theorem sortingFor_arranged {level : Tree} (hn : level.ids.Nodup) (order : List String) :
    (level.arranged order).sortingFor order = level.sortingFor order := by
  rw [sortingFor_eq, sortingFor_eq]
  refine List.filter_congr fun id _ => decide_eq_decide.mpr ?_
  exact ((arranged_perm hn order).map Item.id).mem_iff

/-- A level that is arranged has nothing to reorder. -/
theorem wouldReorder_arranged {level : Tree} (hn : level.ids.Nodup) (order : List String) :
    (level.arranged order).wouldReorder ((level.arranged order).sortingFor order) = false := by
  rw [sortingFor_arranged hn, wouldReorder, ids_arranged hn, decide_eq_false_iff_not, Decidable.not_not,
    List.filter_append, List.filter_filter]
  simp

end Tree

namespace Navigation

theorem sortAt_eq {nav : Navigation} {path : String} {level : Tree} (found : nav.tree.level path = .ok level)
    (order : List String) :
    nav.sortAt path order = .ok (if level.wouldReorder (level.sortingFor order) = true then
      nav.record (.sorted (level.sortingFor order) path) else nav) := by
  rw [sortAt, found]
  exact (apply_ite Except.ok _ _ _).symm

/-- Only a level that is not there makes a sorting fail. -/
theorem sortAt_eq_error {nav : Navigation} {path : String} {order : List String} {error : NavigationError} :
    nav.sortAt path order = .error error ↔ nav.tree.level path = .error error := by
  cases found : nav.tree.level path with
  | ok level => simp [sortAt_eq found]
  | error refusal => simp [sortAt, found, bind, Except.bind]

theorem sortAt_arranged {nav : Navigation} {path : String} {level : Tree} {order : List String}
    (hn : level.ids.Nodup) (found : nav.tree.level path = .ok (level.arranged order)) :
    nav.sortAt path order = .ok nav := by
  rw [sortAt_eq found, Tree.wouldReorder_arranged hn]
  rfl

theorem tree_record_sorted (nav : Navigation) {path : String} {level : Tree} (sorting : List String)
    (found : nav.tree.level path = .ok level) :
    ∃ target, Path.chain? path = some target ∧
      (nav.record (.sorted sorting path)).tree.level path = .ok (Tree.sort sorting level) ∧
      Tree.SameOutside target nav.tree (nav.record (.sorted sorting path)).tree := by
  obtain ⟨tree', hw⟩ := Tree.updateExistingLevel_of_level found (Tree.sort sorting)
  obtain ⟨target, hc, hr⟩ := Tree.rewrites_of_updateExistingLevel (Tree.sort_nil sorting) hw
  have htree : (nav.record (.sorted sorting path)).tree = tree' := by
    simp [record, apply, Snapshot.apply, Snapshot.fold, hw, Except.toOption]
  rw [htree]
  exact ⟨target, hc, hr.level hc found, hr.sameOutside⟩

end Navigation

/-- A sorting is refused exactly if its level is not there; otherwise the level comes to be arranged as asked. An
event is recorded exactly if the order changes. -/
theorem Course.sorting_exact (id : Identity) (moves : List Move) (path : String) (order : List String) :
    let nav := (run id moves).navigation
    (∀ error, nav.sortAt path order = .error error ↔
      (path ≠ "" ∧ ∀ item, nav.tree.item path ≠ .ok item) ∧ error = .itemNotFound path) ∧
    ∀ level, nav.tree.level path = .ok level →
      let arranged := order.eraseDups.filterMap level.get? ++ level.filter fun item => item.id ∉ order
      let sorting := level.sortingFor order
      ∃ after target, nav.sortAt path order = .ok after ∧ Path.chain? path = some target ∧
        after.tree.level path = .ok arranged ∧ arranged.Perm level ∧
        Tree.SameOutside target nav.tree after.tree ∧
        (level.wouldReorder sorting = true ↔ Tree.ids arranged ≠ level.ids) ∧
        after = (if Tree.ids arranged = level.ids then nav else nav.record (.sorted sorting path)) ∧
        sorting = order.eraseDups.filter (· ∈ level.ids) ∧ sorting.Nodup ∧ (∀ id ∈ sorting, id ∈ level.ids) ∧
        after.sortAt path order = .ok after := by
  intro nav
  refine ⟨fun error => by rw [Navigation.sortAt_eq_error, Tree.level_eq_error], fun level found => ?_⟩
  intro arranged sorting
  have hn : level.ids.Nodup := ((wellFormed_run id moves).level found).distinct
  have hmoves := Tree.wouldReorder_iff hn order
  have hinside : ∀ id ∈ sorting, id ∈ level.ids := fun id hi => (Tree.mem_sortingFor.mp hi).2
  obtain ⟨target, hc, hl, hs⟩ := nav.tree_record_sorted sorting found
  rw [Tree.sort_sortingFor hn] at hl
  by_cases hids : Tree.ids arranged = level.ids
  · have hsame : level.arranged order = level := Tree.arranged_of_ids hn hids
    have hl : nav.tree.level path = .ok (level.arranged order) := by rw [hsame, found]
    exact ⟨nav, target, Navigation.sortAt_arranged hn hl, hc, hl, Tree.arranged_perm hn order,
      .refl target nav.tree, hmoves, (if_pos hids).symm, Tree.sortingFor_eq level order,
      Tree.nodup_sortingFor level order, hinside, Navigation.sortAt_arranged hn hl⟩
  · have hdone := Navigation.sortAt_eq found order
    rw [if_pos (hmoves.mpr hids)] at hdone
    exact ⟨nav.record (.sorted sorting path), target, hdone, hc, hl, Tree.arranged_perm hn order, hs, hmoves,
      (if_neg hids).symm, Tree.sortingFor_eq level order, Tree.nodup_sortingFor level order, hinside,
      Navigation.sortAt_arranged hn hl⟩

end Wayfinding
