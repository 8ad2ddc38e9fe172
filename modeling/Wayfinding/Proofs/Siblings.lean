import Wayfinding.Proofs.Level

namespace Wayfinding.Tree

theorem nodup_of_perm {level level' : Tree} (hp : level.Perm level') (hn : level.ids.Nodup) :
    level'.ids.Nodup := (hp.map Item.id).nodup_iff.mp hn

/-- The order of a level does not matter for finding its items. -/
theorem get?_of_perm {level level' : Tree} (hp : level.Perm level') (hn : level.ids.Nodup)
    (id : String) : level'.get? id = level.get? id := by
  cases hg : level.get? id with
  | none =>
    have hnot := get?_eq_none.mp hg
    exact get?_eq_none.mpr fun hm => hnot ((hp.map Item.id).mem_iff.mpr hm)
  | some item =>
    have hm : item ∈ level' := hp.mem_iff.mp (get?_mem hg)
    rw [← get?_id hg]
    exact get?_of_mem (nodup_of_perm hp hn) hm

/-- What stands under an ID is decided by the item that the ID means. -/
theorem detailsAt?_congr {level level' : Tree} {id : String} (h : level'.get? id = level.get? id)
    (rest : List String) : detailsAt? (id :: rest) level' = detailsAt? (id :: rest) level := by
  by_cases hr : rest = []
  · subst hr
    rw [detailsAt?_singleton, detailsAt?_singleton, h]
  · rw [detailsAt?_cons hr, detailsAt?_cons hr, h]

theorem detailsAt?_of_get?_none {level : Tree} {id : String} (h : level.get? id = none)
    (rest : List String) : detailsAt? (id :: rest) level = none := by
  by_cases hr : rest = []
  · subst hr
    simp [detailsAt?_singleton, h]
  · simp [detailsAt?_cons hr, h]

/-- Where siblings differ in their IDs, no item beside another one has its ID. -/
theorem not_mem_beside {before after : Tree} {item : Item} (hn : (ids (before ++ item :: after)).Nodup) :
    item.id ∉ ids before ∧ item.id ∉ ids after := by
  have hids : ids (before ++ item :: after) = ids before ++ item.id :: ids after := by simp [ids]
  rw [hids, List.nodup_append] at hn
  obtain ⟨_, hafter, hbefore⟩ := hn
  exact ⟨fun hm => hbefore _ hm _ List.mem_cons_self rfl, (List.nodup_cons.mp hafter).1⟩

theorem without_cons_self (item : Item) (rest : Tree) : without (item :: rest) item.id = rest := by
  simp [without]

theorem without_cons_ne {item : Item} {id : String} (rest : Tree) (h : item.id ≠ id) :
    without (item :: rest) id = item :: without rest id := by
  simp [without, h]

theorem without_of_get?_none {level : Tree} {id : String} (h : level.get? id = none) :
    level.without id = level := by
  refine List.eraseP_of_forall_not fun item hm => ?_
  simpa using List.find?_eq_none.mp h item hm

/-- Of siblings with one ID the first is found, and is the one that goes. -/
theorem around_of_get? {level : Tree} {id : String} {item : Item} (h : level.get? id = some item) :
    ∃ before after, level = before ++ item :: after ∧ id ∉ ids before ∧ level.without id = before ++ after ∧
      (level.findIdx? fun item => item.id = id) = some before.length := by
  induction level with
  | nil => cases h
  | cons first rest ih =>
    by_cases hid : first.id = id
    · subst hid
      rw [get?_cons_self] at h
      cases h
      exact ⟨[], rest, rfl, by simp [ids], without_cons_self .., by simp [List.findIdx?_cons]⟩
    · rw [get?_cons_ne rest hid] at h
      obtain ⟨before, after, hlevel, hb, hw, hi⟩ := ih h
      refine ⟨first :: before, after, by rw [hlevel]; rfl, ?_, ?_, ?_⟩
      · simpa [ids, Ne.symm hid] using hb
      · rw [without_cons_ne rest hid, hw]
        rfl
      · simp [List.findIdx?_cons, hid, hi]

theorem cons_without_perm {level : Tree} {id : String} {item : Item} (h : level.get? id = some item) :
    (item :: level.without id).Perm level := by
  induction level with
  | nil => cases h
  | cons first rest ih =>
    by_cases hid : first.id = id
    · subst hid
      rw [get?_cons_self] at h
      cases h
      rw [without_cons_self]
    · rw [get?_cons_ne rest hid] at h
      rw [without_cons_ne rest hid]
      exact (List.Perm.swap first item _).trans ((ih h).cons first)

theorem sort_perm (order : List String) (level : Tree) : (sort order level).Perm level := by
  induction order generalizing level with
  | nil => exact .refl level
  | cons id rest ih =>
    unfold sort
    cases hg : level.get? id with
    | none => exact ih level
    | some item => exact ((ih (level.without id)).cons item).trans (cons_without_perm hg)

theorem sort_nil (order : List String) : sort order [] = [] := by
  have hp := sort_perm order []
  exact hp.eq_nil

theorem insert_perm (level : Tree) (index : Nat) (items : List Item) :
    (level.insert index items).Perm (level ++ items) := by
  have hsplit : (level.take index ++ level.drop index ++ items).Perm (level ++ items) := by
    rw [List.take_append_drop]
  refine List.Perm.trans ?_ hsplit
  unfold insert
  rw [List.append_assoc, List.append_assoc]
  exact List.perm_append_comm.append_left _

theorem nodup_append {level : Tree} {items : List Item} (hl : level.ids.Nodup)
    (hi : (ids items).Nodup) (new : ∀ item ∈ items, item.id ∉ level.ids) :
    (ids (level ++ items)).Nodup := by
  unfold ids
  rw [List.map_append]
  refine List.nodup_append.mpr ⟨hl, hi, ?_⟩
  intro id hm other ho he
  obtain ⟨item, hitem, rfl⟩ := List.mem_map.mp ho
  exact new item hitem (he ▸ hm)

/-- Below a level that items were inserted into stands what stood there, and what stands among the items. -/
theorem detailsAt?_insert {level : Tree} {index : Nat} {items : List Item} (hl : level.ids.Nodup)
    (hi : (ids items).Nodup) (new : ∀ item ∈ items, item.id ∉ level.ids) (chain : List String) :
    detailsAt? chain (level.insert index items) =
      (detailsAt? chain level).or (detailsAt? chain items) := by
  cases chain with
  | nil => rfl
  | cons id rest =>
    have hn := nodup_append hl hi new
    have hg : (level.insert index items).get? id = (level.get? id).or (get? items id) := by
      rw [get?_of_perm (insert_perm level index items).symm hn, get?_append]
    cases hlevel : level.get? id with
    | none =>
      rw [hlevel, Option.none_or] at hg
      rw [detailsAt?_congr hg, detailsAt?_of_get?_none hlevel, Option.none_or]
    | some item =>
      have hitems : get? items id = none := by
        refine get?_eq_none.mpr fun hm => ?_
        obtain ⟨other, ho, he⟩ := List.mem_map.mp hm
        have hmem : id ∈ level.ids := List.mem_map.mpr ⟨item, get?_mem hlevel, get?_id hlevel⟩
        exact new other ho (he ▸ hmem)
      rw [hlevel, Option.some_or, ← hlevel] at hg
      rw [detailsAt?_congr hg, detailsAt?_of_get?_none hitems, Option.or_none]

/-- A batch is accepted if its IDs are new to the level and differ from each other. -/
theorem checkDuplicates_eq_ok {level : Tree} {items : List Item} :
    level.checkDuplicates items = .ok () ↔
      (∀ item ∈ items, item.id ∉ level.ids) ∧ (ids items).Nodup := by
  induction items generalizing level with
  | nil => simp [checkDuplicates, ids]
  | cons first rest ih =>
    unfold checkDuplicates
    split
    · rename_i hm
      simp [hm]
    · rename_i hm
      rw [ih]
      simp only [ids, List.map_append, List.map_cons, List.map_nil, List.mem_append, List.mem_cons,
        List.not_mem_nil, or_false, forall_eq_or_imp, List.nodup_cons, List.mem_map, not_or,
        not_exists, not_and] at hm ⊢
      constructor
      · rintro ⟨hnew, hdistinct⟩
        exact ⟨⟨hm, fun item hi => (hnew item hi).1⟩, fun item hi => (hnew item hi).2, hdistinct⟩
      · rintro ⟨⟨_, hnew⟩, hfirst, hdistinct⟩
        exact ⟨fun item hi => ⟨hnew item hi, hfirst item hi⟩, hdistinct⟩

theorem without_sublist (level : Tree) (id : String) : (level.without id).Sublist level :=
  List.eraseP_sublist

theorem ids_without {level : Tree} (hn : level.ids.Nodup) (id : String) :
    (level.without id).ids = level.ids.filter (· ≠ id) := by
  induction level with
  | nil => rfl
  | cons first rest ih =>
    obtain ⟨hnew, hrest⟩ := List.nodup_cons.mp hn
    by_cases hid : first.id = id
    · subst hid
      have hall : (ids rest).filter (· ≠ first.id) = ids rest := by
        refine List.filter_eq_self.mpr fun other ho => decide_eq_true ?_
        rintro rfl
        exact hnew ho
      rw [without_cons_self]
      simpa [ids] using hall.symm
    · rw [without_cons_ne rest hid]
      simpa [ids, hid] using ih hrest

theorem without_eq_filter {level : Tree} (hn : level.ids.Nodup) (id : String) :
    level.without id = level.filter fun item => item.id ≠ id := by
  induction level with
  | nil => rfl
  | cons first rest ih =>
    obtain ⟨hnew, hrest⟩ := List.nodup_cons.mp hn
    by_cases hid : first.id = id
    · subst hid
      have hall : (rest.filter fun item => item.id ≠ first.id) = rest := by
        refine List.filter_eq_self.mpr fun item hm => decide_eq_true fun he => hnew ?_
        exact he ▸ List.mem_map_of_mem hm
      rw [without_cons_self]
      simpa using hall.symm
    · rw [without_cons_ne rest hid, ih hrest]
      simp [hid]

theorem get?_without {level : Tree} (hn : level.ids.Nodup) (id other : String) :
    (level.without id).get? other = if other = id then none else level.get? other := by
  induction level with
  | nil => simp [without, get?]
  | cons first rest ih =>
    simp only [ids, List.map_cons, List.nodup_cons] at hn
    by_cases hid : first.id = id
    · subst hid
      rw [without_cons_self]
      split
      · rename_i ho
        subst ho
        exact get?_eq_none.mpr hn.1
      · rename_i ho
        exact (get?_cons_ne rest (Ne.symm ho)).symm
    · rw [without_cons_ne rest hid]
      by_cases hf : first.id = other
      · subst hf
        rw [get?_cons_self, get?_cons_self, if_neg hid]
      · rw [get?_cons_ne _ hf, get?_cons_ne _ hf]
        exact ih hn.2

theorem detailsAt?_without {level : Tree} (hn : level.ids.Nodup) (id other : String)
    (rest : List String) :
    detailsAt? (other :: rest) (level.without id) =
      if other = id then none else detailsAt? (other :: rest) level := by
  have hg := get?_without hn id other
  split at hg
  · rename_i he
    rw [if_pos he]
    exact detailsAt?_of_get?_none hg rest
  · rename_i he
    rw [if_neg he]
    exact detailsAt?_congr hg rest

theorem mem_firstOccurrences {id : String} {texts : List String} :
    id ∈ firstOccurrences texts ↔ id ∈ texts := by
  induction texts with
  | nil => rfl
  | cons first rest ih =>
    by_cases he : id = first
    · simp [firstOccurrences, he]
    · simp [firstOccurrences, he, ih]

theorem nodup_firstOccurrences (texts : List String) : (firstOccurrences texts).Nodup := by
  induction texts with
  | nil => exact .nil
  | cons first rest ih =>
    refine List.nodup_cons.mpr ⟨?_, ih.filter _⟩
    simp

theorem mem_sortingFor {id : String} {level : Tree} {order : List String} :
    id ∈ level.sortingFor order ↔ id ∈ order ∧ id ∈ level.ids := by
  rw [sortingFor, mem_firstOccurrences]
  simp

theorem nodup_sortingFor (level : Tree) (order : List String) : (level.sortingFor order).Nodup :=
  nodup_firstOccurrences _

/-- Where siblings differ in their IDs, an order without repetitions of IDs that are there comes first, and the
other IDs follow as they were. -/
theorem ids_sort {level : Tree} {order : List String} (hn : level.ids.Nodup) (hd : order.Nodup)
    (hs : ∀ id ∈ order, id ∈ level.ids) :
    (sort order level).ids = order ++ level.ids.filter (· ∉ order) := by
  induction order generalizing level with
  | nil =>
    refine (List.filter_eq_self.mpr ?_).symm
    simp
  | cons id rest ih =>
    obtain ⟨hnew, hrest⟩ := List.nodup_cons.mp hd
    obtain ⟨hid, hothers⟩ := List.forall_mem_cons.mp hs
    cases hg : level.get? id with
    | none => exact absurd hid (get?_eq_none.mp hg)
    | some item =>
      have hids := ids_without hn id
      have hinside : ∀ other ∈ rest, other ∈ (level.without id).ids := by
        intro other ho
        rw [hids]
        refine List.mem_filter.mpr ⟨hothers other ho, decide_eq_true ?_⟩
        rintro rfl
        exact hnew ho
      have hdistinct : (level.without id).ids.Nodup := hn.sublist ((without_sublist level id).map Item.id)
      have htail := ih hdistinct hrest hinside
      have hsort : (sort (id :: rest) level).ids = item.id :: (sort rest (level.without id)).ids := by
        simp [sort, hg, ids]
      rw [hsort, htail, hids, get?_id hg, List.filter_filter]
      simp [Bool.and_comm]

theorem sort_ne {level : Tree} {order : List String} (hn : level.ids.Nodup)
    (h : level.wouldReorder (level.sortingFor order) = true) :
    sort (level.sortingFor order) level ≠ level := by
  intro hsame
  have hids := ids_sort hn (nodup_sortingFor level order) fun id hi => (mem_sortingFor.mp hi).2
  rw [hsame] at hids
  simp only [wouldReorder, decide_eq_true_eq] at h
  exact h hids.symm

end Wayfinding.Tree
