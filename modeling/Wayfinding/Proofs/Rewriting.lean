import Wayfinding.Proofs.Level

namespace Wayfinding.Tree

/-- A tree with one level changed. The way to the level leads over the first item of each ID. -/
inductive Rewrites (change : Tree → Tree) : List String → Tree → Tree → Prop where
  | here (level : Tree) : Rewrites change [] level (change level)
  | inside {ids : List String} {before after : Tree} {item item' : Item}
      (first : item.id ∉ Tree.ids before) (same : item'.details = item.details)
      (deeper : Rewrites change ids item.sublevel item'.sublevel) :
      Rewrites change (item.id :: ids) (before ++ item :: after) (before ++ item' :: after)

theorem id_eq_of_details {item item' : Item} (h : item'.details = item.details) :
    item'.id = item.id := congrArg Details.id h

/-- The level that a rewrite is about is there, and reads as changed afterwards. -/
theorem Rewrites.levelAt? {change : Tree → Tree} {ids : List String} {tree tree' : Tree}
    (h : Rewrites change ids tree tree') :
    ∃ level, levelAt? ids tree = some level ∧ Tree.levelAt? ids tree' = some (change level) := by
  induction h with
  | here level => exact ⟨level, rfl, rfl⟩
  | @inside ids before after item item' first same deeper ih =>
    obtain ⟨level, hl, hl'⟩ := ih
    have hid := id_eq_of_details same
    have hbefore := get?_first after first
    have hafter : get? (before ++ item' :: after) item.id = some item' := by
      rw [get?_replaced hid]
      simp [first]
    exact ⟨level, by simp [Tree.levelAt?, hbefore, hl], by simp [Tree.levelAt?, hafter, hl']⟩

/-- Below the level that was changed, items read as the changed level has them. -/
theorem Rewrites.detailsAt?_inside {change : Tree → Tree} {ids : List String} {tree tree' level : Tree}
    (h : Rewrites change ids tree tree') (hl : Tree.levelAt? ids tree = some level)
    {more : List String} (hm : more ≠ []) :
    detailsAt? (ids ++ more) tree' = detailsAt? more (change level) := by
  obtain ⟨found, hf, hf'⟩ := h.levelAt?
  rw [hl] at hf
  cases hf
  rw [detailsAt?_append hm, hf']
  rfl

/-- Items outside of the level that was changed keep their details. -/
theorem Rewrites.detailsAt?_outside {change : Tree → Tree} {target : List String} {tree tree' : Tree}
    (h : Rewrites change target tree tree') {ids : List String}
    (ho : ∀ more, more ≠ [] → ids ≠ target ++ more) : detailsAt? ids tree' = detailsAt? ids tree := by
  induction h generalizing ids with
  | here level =>
    have hnil : ids = [] := by
      by_cases he : ids = []
      · exact he
      · exact absurd rfl (ho ids he)
    subst hnil
    rfl
  | @inside target before after item item' first same deeper ih =>
    have hid := id_eq_of_details same
    cases ids with
    | nil => rfl
    | cons id rest =>
      by_cases hr : rest = []
      · subst hr
        rw [detailsAt?_singleton, detailsAt?_singleton, get?_replaced hid]
        by_cases hi : item.id = id
        · subst hi
          simp [first, get?_first after first, same]
        · simp [hi]
      · rw [detailsAt?_cons hr, detailsAt?_cons hr, get?_replaced hid]
        by_cases hi : item.id = id
        · subst hi
          have hrest : ∀ more, more ≠ [] → rest ≠ target ++ more := by
            intro more hm he
            exact ho more hm (by rw [he]; rfl)
          simp [first, get?_first after first, ih hrest]
        · simp [hi]

/-- What stands below the level that was rewritten, or stands elsewhere. -/
theorem chain_cases (target ids : List String) :
    (∃ more, more ≠ [] ∧ ids = target ++ more) ∨ ∀ more, more ≠ [] → ids ≠ target ++ more := by
  by_cases h : ∃ more, more ≠ [] ∧ ids = target ++ more
  · exact .inl h
  · exact .inr fun more hm he => h ⟨more, hm, he⟩

theorem Rewrites.detailsAt?_id {target : List String} {tree tree' : Tree} (h : Rewrites id target tree tree')
    (ids : List String) : detailsAt? ids tree' = detailsAt? ids tree := by
  rcases chain_cases target ids with ⟨more, hm, rfl⟩ | hout
  · obtain ⟨level, hl, -⟩ := h.levelAt?
    rw [h.detailsAt?_inside hl hm, detailsAt?_append hm, hl]
    rfl
  · exact h.detailsAt?_outside hout

theorem change?_eq_some {id : String} {change : Item → Option Item} {level level' : Tree}
    (h : change? id change level = some level') :
    ∃ before item item' after, level = before ++ item :: after ∧ item.id = id ∧ id ∉ ids before ∧
      change item = some item' ∧ level' = before ++ item' :: after := by
  induction level generalizing level' with
  | nil => cases h
  | cons first rest ih =>
    unfold change? at h
    split at h
    · rename_i hid
      obtain ⟨item', hc, rfl⟩ := Option.map_eq_some_iff.mp h
      exact ⟨[], first, item', rest, rfl, hid, by simp [ids], hc, rfl⟩
    · rename_i hid
      obtain ⟨rest', hr, rfl⟩ := Option.map_eq_some_iff.mp h
      obtain ⟨before, item, item', after, rfl, hi, hb, hc, rfl⟩ := ih hr
      refine ⟨first :: before, item, item', after, rfl, hi, ?_, hc, rfl⟩
      simp only [ids, List.map_cons, List.mem_cons, not_or]
      exact ⟨fun he => hid he.symm, hb⟩

theorem change?_isSome (id : String) (change : Item → Option Item) (level : Tree) :
    (change? id change level).isSome = ((level.get? id).bind change).isSome := by
  induction level with
  | nil => rfl
  | cons first rest ih =>
    by_cases hid : first.id = id
    · subst hid
      simp [change?, get?_cons_self]
    · simp [change?, hid, get?_cons_ne rest hid, ih]

/-- Writing finds an item exactly where reading finds one. -/
theorem alter?_isSome (change : Item → Item) (ids : List String) (tree : Tree) :
    (alter? change ids tree).isSome = (descend? ids tree).isSome := by
  induction ids generalizing tree with
  | nil => rfl
  | cons id rest ih =>
    cases rest with
    | nil =>
      simp only [alter?, change?_isSome, descend?]
      cases tree.get? id <;> rfl
    | cons next rest =>
      simp only [alter?, change?_isSome, descend?]
      cases tree.get? id with
      | none => rfl
      | some item =>
        cases item with
        | leaf details => rfl
        | group details children => simpa [Item.children?] using ih children

/-- A change that keeps an item's details, and does to its level what `below` says, rewrites that level. -/
theorem rewrites_of_alter? {change : Item → Item} {below : Tree → Tree}
    (keeps : ∀ item, (change item).details = item.details)
    (acts : ∀ item, (change item).sublevel = below item.sublevel)
    {ids : List String} {tree tree' : Tree} (h : alter? change ids tree = some tree') :
    Rewrites below ids tree tree' := by
  induction ids generalizing tree tree' with
  | nil => cases h
  | cons id rest ih =>
    cases rest with
    | nil =>
      obtain ⟨before, item, item', after, rfl, rfl, hb, hc, rfl⟩ := change?_eq_some h
      cases hc
      refine .inside hb (keeps item) ?_
      rw [acts item]
      exact .here item.sublevel
    | cons next rest =>
      obtain ⟨before, item, item', after, rfl, rfl, hb, hc, rfl⟩ := change?_eq_some h
      cases item with
      | leaf details => cases hc
      | group details children =>
        obtain ⟨children', ha, rfl⟩ := Option.map_eq_some_iff.mp hc
        exact .inside hb rfl (ih ha)

theorem updateItem_eq_ok {tree tree' : Tree} {path : String} {change : Item → Item} :
    tree.updateItem path change = .ok tree' ↔
      ∃ ids, Path.segments? path = some ids ∧ alter? change ids tree = some tree' := by
  rw [updateItem, ← Option.bind_eq_some_iff]
  split
  · rename_i hf
    simp [hf]
  · rename_i hf
    simp [hf]

theorem rewrites_of_updateItem {change : Item → Item} {below : Tree → Tree}
    (keeps : ∀ item, (change item).details = item.details)
    (acts : ∀ item, (change item).sublevel = below item.sublevel)
    {path : String} {tree tree' : Tree} (h : tree.updateItem path change = .ok tree') :
    ∃ ids, Path.chain? path = some ids ∧ Rewrites below ids tree tree' := by
  obtain ⟨ids, hs, ha⟩ := updateItem_eq_ok.mp h
  exact ⟨ids, Path.chain?_of_segments hs, rewrites_of_alter? keeps acts ha⟩

theorem rewrites_of_updateLevel {change : Tree → Tree} {path : String} {tree tree' : Tree}
    (h : tree.updateLevel path change = .ok tree') :
    ∃ ids, Path.chain? path = some ids ∧ Rewrites change ids tree tree' := by
  unfold updateLevel at h
  split at h
  · rename_i hp
    cases h
    exact ⟨[], by simp [hp], .here tree⟩
  · refine rewrites_of_updateItem ?_ ?_ h <;> intro item <;> cases item <;> rfl

/-- A leaf stays a leaf, which is a rewrite of its empty level if nothing comes of that level. -/
theorem rewrites_of_updateExistingLevel {change : Tree → Tree} (hnil : change [] = [])
    {path : String} {tree tree' : Tree} (h : tree.updateExistingLevel path change = .ok tree') :
    ∃ ids, Path.chain? path = some ids ∧ Rewrites change ids tree tree' := by
  unfold updateExistingLevel at h
  split at h
  · rename_i hp
    cases h
    exact ⟨[], by simp [hp], .here tree⟩
  · refine rewrites_of_updateItem ?_ ?_ h
    · intro item
      cases item <;> rfl
    · intro item
      cases item with
      | leaf details => exact hnil.symm
      | group details children => rfl

theorem updateItem_of_item {tree : Tree} {path : String} {item : Item} (h : tree.item path = .ok item)
    (change : Item → Item) : ∃ tree', tree.updateItem path change = .ok tree' := by
  obtain ⟨ids, hs, hd⟩ := item_eq_ok.mp h
  have hsome := alter?_isSome change ids tree
  rw [hd, Option.isSome_some] at hsome
  obtain ⟨tree', ha⟩ := Option.isSome_iff_exists.mp hsome
  exact ⟨tree', updateItem_eq_ok.mpr ⟨ids, hs, ha⟩⟩

theorem updateLevel_of_level {tree level : Tree} {path : String} (h : tree.level path = .ok level)
    (change : Tree → Tree) : ∃ tree', tree.updateLevel path change = .ok tree' := by
  unfold updateLevel
  split
  · exact ⟨change tree, rfl⟩
  · rename_i hp
    obtain ⟨item, hi, -⟩ := item_of_level hp h
    exact updateItem_of_item hi _

theorem updateExistingLevel_of_level {tree level : Tree} {path : String}
    (h : tree.level path = .ok level) (change : Tree → Tree) :
    ∃ tree', tree.updateExistingLevel path change = .ok tree' := by
  unfold updateExistingLevel
  split
  · exact ⟨change tree, rfl⟩
  · rename_i hp
    obtain ⟨item, hi, -⟩ := item_of_level hp h
    exact updateItem_of_item hi _

theorem removePath_of_level {tree level : Tree} {path : String}
    (h : tree.existingLevel (Path.splitLast path).1 = .ok (some level)) :
    ∃ ids, Path.chain? (Path.splitLast path).1 = some ids ∧ levelAt? ids tree = some level ∧
      Rewrites (·.without (Path.splitLast path).2) ids tree (tree.removePath path).2 := by
  have hl := level_of_existingLevel h
  obtain ⟨tree', hu⟩ := updateExistingLevel_of_level hl (·.without (Path.splitLast path).2)
  obtain ⟨ids, hc, hr⟩ := rewrites_of_updateExistingLevel rfl hu
  exact ⟨ids, hc, levelAt?_of_level hl hc, by simpa [removePath, h, hu, Except.toOption] using hr⟩

theorem removePath_of_no_level {tree : Tree} {path : String}
    (h : ∀ level, tree.existingLevel (Path.splitLast path).1 ≠ .ok (some level)) :
    (tree.removePath path).2 = tree := by
  unfold removePath
  cases he : tree.existingLevel (Path.splitLast path).1 with
  | error error => simp [he]
  | ok found =>
    cases found with
    | none => simp [he]
    | some level => exact absurd he (h level)

end Wayfinding.Tree
