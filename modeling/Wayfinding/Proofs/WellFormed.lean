import Wayfinding.Proofs.Decision
import Wayfinding.Proofs.Rewriting
import Wayfinding.Proofs.Siblings

namespace Wayfinding

namespace Tree

/-- At every level siblings differ in their IDs, and each ID can be addressed. -/
inductive WellFormed : Tree → Prop where
  | intro {level : Tree} (distinct : level.ids.Nodup) (valid : ∀ item ∈ level, Path.ValidId item.id)
      (inside : ∀ item ∈ level, WellFormed item.sublevel) : WellFormed level

theorem WellFormed.distinct {level : Tree} (h : WellFormed level) : level.ids.Nodup := by
  cases h
  assumption

theorem WellFormed.valid {level : Tree} (h : WellFormed level) : ∀ item ∈ level, Path.ValidId item.id := by
  cases h
  assumption

theorem WellFormed.inside {level : Tree} (h : WellFormed level) :
    ∀ item ∈ level, WellFormed item.sublevel := by
  cases h
  assumption

theorem wellFormed_nil : WellFormed [] := .intro .nil (by simp) (by simp)

theorem WellFormed.of_perm {level level' : Tree} (h : WellFormed level) (hp : level.Perm level') :
    WellFormed level' :=
  .intro (nodup_of_perm hp h.distinct) (fun item hm => h.valid item (hp.mem_iff.mpr hm))
    (fun item hm => h.inside item (hp.mem_iff.mpr hm))

theorem WellFormed.sublist {level level' : Tree} (h : WellFormed level) (hs : level'.Sublist level) :
    WellFormed level' :=
  .intro (h.distinct.sublist (hs.map Item.id)) (fun item hm => h.valid item (hs.subset hm))
    (fun item hm => h.inside item (hs.subset hm))

theorem WellFormed.append {level : Tree} {items : List Item} (h : WellFormed level)
    (hi : WellFormed items) (new : ∀ item ∈ items, item.id ∉ level.ids) :
    WellFormed (level ++ items) := by
  refine .intro (nodup_append h.distinct hi.distinct new) ?_ ?_
  · intro item hm
    exact (List.mem_append.mp hm).elim (h.valid item) (hi.valid item)
  · intro item hm
    exact (List.mem_append.mp hm).elim (h.inside item) (hi.inside item)

theorem WellFormed.levelAt? {ids : List String} {tree level : Tree} (h : WellFormed tree)
    (hl : Tree.levelAt? ids tree = some level) : WellFormed level := by
  induction ids generalizing tree with
  | nil =>
    cases hl
    exact h
  | cons id rest ih =>
    obtain ⟨item, hg, hr⟩ := Option.bind_eq_some_iff.mp hl
    exact ih (h.inside item (get?_mem hg)) hr

mutual

theorem wellFormed_of_checkItem : (item : Item) → Navigation.checkItem item = .ok () →
    Path.ValidId item.id ∧ WellFormed item.sublevel
  | .leaf details, h => by
    simp only [Navigation.checkItem] at h
    split at h
    · rename_i hv
      exact ⟨hv, wellFormed_nil⟩
    · cases h
  | .group details children, h => by
    simp only [Navigation.checkItem] at h
    split at h
    · rename_i hv
      cases hd : checkDuplicates [] children with
      | error error => simp [hd] at h
      | ok _ =>
        simp only [hd] at h
        have hall := wellFormed_of_checkItems children h
        exact ⟨hv, .intro (checkDuplicates_eq_ok.mp hd).2 (fun item hm => (hall item hm).1)
          (fun item hm => (hall item hm).2)⟩
    · cases h

theorem wellFormed_of_checkItems : (items : List Item) → Navigation.checkItems items = .ok () →
    ∀ item ∈ items, Path.ValidId item.id ∧ WellFormed item.sublevel
  | [], _ => by simp
  | first :: rest, h => by
    simp only [Navigation.checkItems] at h
    cases hf : Navigation.checkItem first with
    | error error => simp [hf] at h
    | ok _ =>
      simp only [hf] at h
      have hfirst := wellFormed_of_checkItem first hf
      have hrest := wellFormed_of_checkItems rest h
      intro item hm
      rcases List.mem_cons.mp hm with he | hm
      · exact he ▸ hfirst
      · exact hrest item hm

end

/-- A batch that passes both checks is well-formed on its own. -/
theorem wellFormed_of_checks {level : Tree} {items : List Item}
    (hs : Navigation.checkItems items = .ok ()) (hd : level.checkDuplicates items = .ok ()) :
    WellFormed items := by
  have hall := wellFormed_of_checkItems items hs
  exact .intro (checkDuplicates_eq_ok.mp hd).2 (fun item hm => (hall item hm).1)
    (fun item hm => (hall item hm).2)

theorem setInitial_eq_map (tree : Tree) (flag : Bool) :
    tree.setInitial flag = tree.map (Item.setInitial flag) := Item.setInitialAll_eq_map flag tree

theorem details_setInitial (flag : Bool) (item : Item) :
    (item.setInitial flag).details = { item.details with initial := flag } := by
  cases item <;> rfl

theorem sublevel_setInitial (flag : Bool) (item : Item) :
    (item.setInitial flag).sublevel = Tree.setInitial item.sublevel flag := by
  cases item <;> rfl

theorem ids_setInitial (tree : Tree) (flag : Bool) : (tree.setInitial flag).ids = tree.ids := by
  rw [setInitial_eq_map]
  simp [ids]

theorem forall_ids_setInitial {p : String → Prop} {items : List Item} (h : ∀ item ∈ items, p item.id)
    (flag : Bool) : ∀ item ∈ Tree.setInitial items flag, p item.id := by
  intro item hm
  rw [setInitial_eq_map] at hm
  obtain ⟨original, ho, rfl⟩ := List.mem_map.mp hm
  rw [Item.id_setInitial]
  exact h original ho

theorem WellFormed.setInitial {tree : Tree} (h : WellFormed tree) (flag : Bool) :
    WellFormed (tree.setInitial flag) := by
  induction h with
  | @intro level distinct valid inside ih =>
    refine .intro ((ids_setInitial level flag).symm ▸ distinct) (forall_ids_setInitial valid flag) ?_
    · intro item hm
      rw [setInitial_eq_map] at hm
      obtain ⟨original, ho, rfl⟩ := List.mem_map.mp hm
      rw [sublevel_setInitial]
      exact ih original ho

theorem get?_map {change : Item → Item} (keeps : ∀ item, (change item).id = item.id) (level : Tree)
    (id : String) : get? (level.map change) id = (level.get? id).map change := by
  simp only [get?, List.find?_map, Function.comp_def, keeps]

theorem get?_setInitial (tree : Tree) (flag : Bool) (id : String) :
    (tree.setInitial flag).get? id = (tree.get? id).map (Item.setInitial flag) := by
  rw [setInitial_eq_map, get?_map (Item.id_setInitial flag)]

/-- Setting the flag changes it everywhere, and nothing else anywhere. -/
theorem detailsAt?_setInitial (tree : Tree) (flag : Bool) (ids : List String) :
    detailsAt? ids (tree.setInitial flag) =
      (detailsAt? ids tree).map fun details => { details with initial := flag } := by
  induction ids generalizing tree with
  | nil => rfl
  | cons id rest ih =>
    by_cases hr : rest = []
    · subst hr
      rw [detailsAt?_singleton, detailsAt?_singleton, get?_setInitial]
      cases tree.get? id with
      | none => rfl
      | some item => simp [details_setInitial]
    · rw [detailsAt?_cons hr, detailsAt?_cons hr, get?_setInitial]
      cases tree.get? id with
      | none => rfl
      | some item => simpa [sublevel_setInitial] using ih item.sublevel

theorem Rewrites.wellFormed {change : Tree → Tree} {ids : List String} {tree tree' : Tree}
    (h : Rewrites change ids tree tree') (hw : WellFormed tree)
    (hc : ∀ level, Tree.levelAt? ids tree = some level → WellFormed level → WellFormed (change level)) :
    WellFormed tree' := by
  induction h with
  | here level => exact hc level rfl hw
  | @inside ids before after item item' first same deeper ih =>
    have hid := id_eq_of_details same
    have hmem : item ∈ before ++ item :: after := by simp
    have hfound : get? (before ++ item :: after) item.id = some item := get?_of_mem hw.distinct hmem
    have hitem : WellFormed item'.sublevel := by
      refine ih (hw.inside item hmem) fun level hl => hc level ?_
      simpa [Tree.levelAt?, hfound] using hl
    have hids : (before ++ item' :: after).map Item.id = (before ++ item :: after).map Item.id := by
      simp [hid]
    refine .intro ?_ ?_ ?_
    · unfold Tree.ids
      rw [hids]
      exact hw.distinct
    · intro other ho
      rcases List.mem_append.mp ho with ho | ho
      · exact hw.valid other (List.mem_append_left _ ho)
      · rcases List.mem_cons.mp ho with rfl | ho
        · exact hid ▸ hw.valid item hmem
        · exact hw.valid other (List.mem_append_right _ (List.mem_cons_of_mem _ ho))
    · intro other ho
      rcases List.mem_append.mp ho with ho | ho
      · exact hw.inside other (List.mem_append_left _ ho)
      · rcases List.mem_cons.mp ho with rfl | ho
        · exact hitem
        · exact hw.inside other (List.mem_append_right _ (List.mem_cons_of_mem _ ho))

/-- A batch that passes its checks leaves the level that it enters well-formed. -/
theorem WellFormed.insert {level : Tree} {items : List Item} (h : WellFormed level)
    (hs : Navigation.checkItems items = .ok ()) (hd : level.checkDuplicates items = .ok ())
    (flag : Bool) (index : Nat) : WellFormed (level.insert index (Tree.setInitial items flag)) := by
  have hitems := (wellFormed_of_checks hs hd).setInitial flag
  have hnew := forall_ids_setInitial (p := (· ∉ level.ids)) (checkDuplicates_eq_ok.mp hd).1 flag
  exact (h.append hitems hnew).of_perm (insert_perm level index _).symm

theorem WellFormed.removePath {tree : Tree} (h : WellFormed tree) (path : String) :
    WellFormed (tree.removePath path).2 := by
  by_cases he : ∃ level, tree.existingLevel (Path.splitLast path).1 = .ok (some level)
  · obtain ⟨level, he⟩ := he
    obtain ⟨ids, _, _, hr⟩ := removePath_of_level he
    exact hr.wellFormed h fun level _ hl => hl.sublist (without_sublist level _)
  · rw [removePath_of_no_level (not_exists.mp he)]
    exact h

theorem WellFormed.removeAll {tree : Tree} (h : WellFormed tree) (paths : List String) :
    WellFormed (paths.foldl (fun tree path => (tree.removePath path).2) tree) := by
  induction paths generalizing tree with
  | nil => exact h
  | cons path rest ih => exact ih (h.removePath path)

end Tree

namespace Snapshot

theorem rewrites_itemsAdded {state : Snapshot} {path : String} {level : Tree}
    (found : state.tree.level path = .ok level) (items : List Item) (index : Nat) :
    ∃ ids, Tree.levelAt? ids state.tree = some level ∧
      Tree.Rewrites (·.insert index items) ids state.tree
        (state.apply (.itemsAdded items index path)).tree := by
  obtain ⟨tree', hw⟩ := Tree.updateLevel_of_level found (·.insert index items)
  obtain ⟨ids, hc, hr⟩ := Tree.rewrites_of_updateLevel hw
  refine ⟨ids, Tree.levelAt?_of_level found hc, ?_⟩
  simpa [apply, fold, hw, Except.toOption] using hr

theorem rewrites_sorted {state : Snapshot} {path : String} {level : Tree}
    (found : state.tree.level path = .ok level) (sorting : List String) :
    ∃ ids, Tree.levelAt? ids state.tree = some level ∧
      Tree.Rewrites (Tree.sort sorting) ids state.tree (state.apply (.sorted sorting path)).tree := by
  obtain ⟨tree', hw⟩ := Tree.updateExistingLevel_of_level found (Tree.sort sorting)
  obtain ⟨ids, hc, hr⟩ := Tree.rewrites_of_updateExistingLevel (Tree.sort_nil sorting) hw
  refine ⟨ids, Tree.levelAt?_of_level found hc, ?_⟩
  simpa [apply, fold, hw, Except.toOption] using hr

end Snapshot

/-- After a creation its items are the tree, and all of them are initial. -/
theorem Snapshot.foldl_creation (state : Snapshot) (name : String) (items : List Item) :
    ((eventsOfCreation name items).foldl apply state).name = Text.trim name ∧
      ((eventsOfCreation name items).foldl apply state).tree = Tree.setInitial items true := by
  cases items with
  | nil => exact ⟨rfl, rfl⟩
  | cons first rest => simp [eventsOfCreation, apply, fold, Tree.updateLevel, Tree.insert, Except.toOption]

theorem Decision.wellFormed {state : Snapshot} {events : List Event} (h : Decision state events)
    (hw : state.tree.WellFormed) : (events.foldl Snapshot.apply state).tree.WellFormed := by
  cases h with
  | idle => exact hw
  | creation _ _ sound distinct =>
    rw [(Snapshot.foldl_creation state _ _).2]
    exact (Tree.wellFormed_of_checks sound distinct).setInitial true
  | addition found _ sound distinct _ =>
    obtain ⟨ids, hl, hr⟩ := Snapshot.rewrites_itemsAdded found (Tree.setInitial _ false) _
    refine hr.wellFormed hw fun level hl' hlevel => ?_
    rw [hl] at hl'
    cases hl'
    exact hlevel.insert sound distinct false _
  | removal => exact hw.removeAll _
  | sorting found _ =>
    obtain ⟨ids, _, hr⟩ := Snapshot.rewrites_sorted found _
    exact hr.wellFormed hw fun level _ hlevel => hlevel.of_perm (Tree.sort_perm _ level).symm

theorem Navigation.wellFormed_perform {nav after : Navigation} (hw : nav.tree.WellFormed) (intent : Intent)
    (h : nav.perform intent = .ok after) : after.tree.WellFormed := by
  obtain ⟨events, hdecided, rfl⟩ := perform_decided h
  rw [recordAll_toSnapshot]
  exact hdecided.wellFormed hw

end Wayfinding
