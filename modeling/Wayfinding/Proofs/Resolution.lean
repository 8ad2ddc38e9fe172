import Wayfinding.Proofs.Outside
import Wayfinding.Proofs.Place

namespace Wayfinding.Tree

/-- One item made another where it stands. -/
structure ItemWritten (place : List Nat) (item item' : Item) (tree tree' : Tree) : Prop where
  found : itemIn? place tree = some item
  left : itemIn? place tree' = some item'
  beside : SameBeside place tree tree'

/-- One level made another where it is. -/
structure LevelWritten (place : List Nat) (level level' : Tree) (tree tree' : Tree) : Prop where
  found : levelIn? place tree = some level
  left : levelIn? place tree' = some level'
  beside : SameBeside place tree tree'

variable {tree : Tree} {path : String}

theorem place_of_item {item : Item} (h : tree.item path = .ok item) :
    ∃ place, tree.place? path = some place ∧ itemIn? place tree = some item := by
  obtain ⟨ids, hs, hd⟩ := item_eq_ok.mp h
  rw [descend?_eq_place] at hd
  obtain ⟨place, hp, hi⟩ := Option.bind_eq_some_iff.mp hd
  exact ⟨place, by simp [place?, Path.chain?_of_segments hs, hp], hi⟩

theorem descend?_alter? {change : Item → Item} {ids : List String} {tree tree' : Tree} {item : Item}
    (hd : descend? ids tree = some item) (hid : (change item).id = item.id)
    (ha : alter? change ids tree = some tree') : descend? ids tree' = some (change item) := by
  induction ids generalizing tree tree' with
  | nil => cases hd
  | cons id rest ih =>
    cases rest with
    | nil =>
      obtain ⟨before, found, item', after, rfl, rfl, first, hc, rfl⟩ := change?_eq_some ha
      cases hc
      cases (get?_first after first).symm.trans hd
      rw [descend?, ← hid]
      exact get?_first after (hid ▸ first)
    | cons next more =>
      obtain ⟨before, found, item', after, rfl, rfl, first, hc, rfl⟩ := change?_eq_some ha
      cases found with
      | leaf details => cases hc
      | group details children =>
        obtain ⟨children', hb, rfl⟩ := Option.map_eq_some_iff.mp hc
        have hg : get? (before ++ .group details children' :: after) details.id =
            some (.group details children') := get?_first after first
        rw [descend?_cons (by simp), get?_first after first] at hd
        rw [descend?_cons (by simp)]
        exact (congrArg (Option.bind · _) hg).trans (ih hd hb)

theorem updateItem_at {place : List Nat} {item : Item} (h : tree.item path = .ok item)
    (hp : tree.place? path = some place) (change : Item → Item) :
    tree.updateItem path change = .ok (alterIn change place tree) := by
  obtain ⟨ids, hs, -⟩ := item_eq_ok.mp h
  rw [place?, Path.chain?_of_segments hs, Option.bind_some] at hp
  refine updateItem_eq_ok.mpr ⟨ids, hs, ?_⟩
  rw [alter?_eq_place (Path.ne_nil_of_segments hs), hp, Option.map_some]

theorem item_updateItem {item : Item} {change : Item → Item} {tree' : Tree} (h : tree.item path = .ok item)
    (hid : (change item).id = item.id) (hu : tree.updateItem path change = .ok tree') :
    tree'.item path = .ok (change item) := by
  obtain ⟨ids, hs, hd⟩ := item_eq_ok.mp h
  obtain ⟨ids', hs', ha⟩ := updateItem_eq_ok.mp hu
  cases hs.symm.trans hs'
  exact item_eq_ok.mpr ⟨ids, hs, descend?_alter? hd hid ha⟩

theorem itemWritten_alterIn {place : List Nat} {item : Item} (hi : itemIn? place tree = some item)
    (change : Item → Item) : ItemWritten place item (change item) tree (alterIn change place tree) where
  found := hi
  left := by rw [itemIn?_alterIn, hi, Option.map_some]
  beside := sameBeside_alterIn change place tree

theorem updateItem_eq_error {change : Item → Item} {error : NavigationError} :
    tree.updateItem path change = .error error ↔ tree.item path = .error error := by
  unfold updateItem Tree.item
  cases hs : Path.segments? path with
  | none => simp
  | some ids =>
    have hsome := alter?_isSome change ids tree
    cases hd : descend? ids tree <;> cases ha : alter? change ids tree <;> simp_all

theorem levelWritten_root (level level' : Tree) : LevelWritten [] level level' level level' where
  found := rfl
  left := rfl
  beside _ h := absurd List.nil_prefix h

theorem ItemWritten.level {place : List Nat} {item item' : Item} {tree' : Tree}
    (h : ItemWritten place item item' tree tree') :
    LevelWritten place item.sublevel item'.sublevel tree tree' := by
  obtain ⟨found, left, beside⟩ := h
  cases place with
  | nil => cases found
  | cons position rest => exact ⟨by simp [levelIn?, found], by simp [levelIn?, left], beside⟩

theorem updateLevel_eq_error {change : Tree → Tree} {error : NavigationError} :
    tree.updateLevel path change = .error error ↔ tree.level path = .error error := by
  by_cases hp : path = ""
  · simp [updateLevel, level, hp]
  · rw [updateLevel, if_neg hp, updateItem_eq_error, level_eq_map hp]
    cases tree.item path <;> simp [Except.map]

theorem updateExistingLevel_eq_error {change : Tree → Tree} {error : NavigationError} :
    tree.updateExistingLevel path change = .error error ↔ tree.level path = .error error := by
  by_cases hp : path = ""
  · simp [updateExistingLevel, level, hp]
  · rw [updateExistingLevel, if_neg hp, updateItem_eq_error, level_eq_map hp]
    cases tree.item path <;> simp [Except.map]

/-- A level is written where it is read, and a leaf is made a group for it. -/
theorem updateLevel_at {level : Tree} (h : tree.level path = .ok level) : ∃ place, tree.place? path = some place ∧
    ∀ change, ∃ tree', tree.updateLevel path change = .ok tree' ∧
      LevelWritten place level (change level) tree tree' ∧
      (itemIn? place tree').map Item.own = (itemIn? place tree).map (fun item => (item.details, true)) ∧
      tree'.level path = .ok (change level) := by
  by_cases hp : path = ""
  · subst hp
    cases h
    exact ⟨[], rfl, fun change => ⟨change tree, rfl, levelWritten_root .., rfl, rfl⟩⟩
  · obtain ⟨item, hi, rfl⟩ := item_of_level hp h
    obtain ⟨place, hplace, hin⟩ := place_of_item hi
    refine ⟨place, hplace, fun change => ?_⟩
    have hu := updateItem_at hi hplace fun item => item.withChildren (change item.sublevel)
    have hw := itemWritten_alterIn hin fun item => item.withChildren (change item.sublevel)
    have hread := item_updateItem hi rfl hu
    refine ⟨_, by rw [updateLevel, if_neg hp]; exact hu, hw.level, ?_, ?_⟩
    · rw [hw.left, hw.found]
      rfl
    · rw [level_eq_map hp, hread]
      rfl

theorem updateExistingLevel_eq (hp : path ≠ "") (change : Tree → Tree) :
    tree.updateExistingLevel path change = tree.updateItem path (Item.mapChildren change) := by
  rw [updateExistingLevel, if_neg hp]
  congr 1

/-- A level that is there is written where it is read. A leaf is left as it is. -/
theorem updateExistingLevel_at {found : Option Tree} (h : tree.existingLevel path = .ok found) :
    ∃ place, tree.place? path = some place ∧
      ∀ change, ∃ tree', tree.updateExistingLevel path change = .ok tree' ∧
        LevelWritten place (found.getD []) ((found.map change).getD []) tree tree' ∧
        (itemIn? place tree').map Item.own = (itemIn? place tree).map Item.own ∧
        tree'.existingLevel path = .ok (found.map change) := by
  by_cases hp : path = ""
  · subst hp
    cases h
    exact ⟨[], rfl, fun change => ⟨change tree, rfl, levelWritten_root .., rfl, rfl⟩⟩
  · obtain ⟨item, hi, rfl⟩ := item_of_existingLevel hp h
    obtain ⟨place, hplace, hin⟩ := place_of_item hi
    refine ⟨place, hplace, fun change => ?_⟩
    have hu := updateItem_at hi hplace (Item.mapChildren change)
    have hw := itemWritten_alterIn hin (Item.mapChildren change)
    have hown : (item.mapChildren change).own = item.own := by cases item <;> rfl
    have hbelow : (item.mapChildren change).children? = item.children?.map change := by cases item <;> rfl
    have hread := item_updateItem hi (id_eq_of_details (congrArg Prod.fst hown)) hu
    refine ⟨_, by rw [updateExistingLevel_eq hp]; exact hu, ?_, ?_, ?_⟩
    · rw [← hbelow]
      exact hw.level
    · rw [hw.left, hw.found, Option.map_some, Option.map_some, hown]
    · rw [existingLevel_eq_map hp, hread, ← hbelow]
      rfl

theorem item_map_details (tree : Tree) (path : String) :
    (tree.item path).map Item.details =
      match (Path.segments? path).bind fun ids => detailsAt? ids tree with
      | some details => .ok details
      | none => .error (.itemNotFound path) := by
  unfold Tree.item detailsAt?
  cases Path.segments? path with
  | none => rfl
  | some ids => cases hd : descend? ids tree <;> simp [hd, Except.map]

/-- To obtain a level for writing makes a group of a leaf, and does nothing else. -/
theorem updateLevel_id {tree' : Tree} (h : tree.updateLevel path id = .ok tree') :
    tree' = tree ∨ ∃ place details, tree.place? path = some place ∧
      ItemWritten place (.leaf details) (.group details []) tree tree' := by
  by_cases hp : path = ""
  · subst hp
    cases h
    exact .inl rfl
  · rw [updateLevel, if_neg hp] at h
    cases hi : tree.item path with
    | error error => simp [updateItem_eq_error.mpr hi] at h
    | ok item =>
      obtain ⟨place, hplace, hin⟩ := place_of_item hi
      rw [updateItem_at hi hplace] at h
      cases h
      cases item with
      | leaf details =>
        exact .inr ⟨place, details, hplace, itemWritten_alterIn hin fun item => item.withChildren item.sublevel⟩
      | group details children =>
        refine .inl (alterIn_fixed fun found hf => ?_)
        cases hin.symm.trans hf
        rfl

theorem updateExistingLevel_fixed {found : Option Tree} {change : Tree → Tree}
    (h : tree.existingLevel path = .ok found) (hf : found.map change = found) :
    tree.updateExistingLevel path change = .ok tree := by
  by_cases hp : path = ""
  · subst hp
    cases h
    exact congrArg Except.ok (Option.some.inj hf)
  · obtain ⟨item, hi, rfl⟩ := item_of_existingLevel hp h
    obtain ⟨place, hplace, hin⟩ := place_of_item hi
    rw [updateExistingLevel_eq hp, updateItem_at hi hplace]
    refine congrArg Except.ok (alterIn_fixed fun other ho => ?_)
    cases hin.symm.trans ho
    cases item with
    | leaf details => rfl
    | group details children => exact congrArg (Item.group details) (Option.some.inj hf)

theorem updateExistingLevel_id {tree' : Tree} (h : tree.updateExistingLevel path id = .ok tree') : tree' = tree := by
  cases he : tree.existingLevel path with
  | error error =>
    have hlevel : tree.level path = .error error := by
      rw [level_eq_existingLevel, he]
      rfl
    simp [updateExistingLevel_eq_error.mpr hlevel] at h
  | ok found => exact (Except.ok.inj ((updateExistingLevel_fixed he Option.map_id_apply).symm.trans h)).symm

/-- Reading and writing resolve a path alike, in every tree: they fail with the same error, or come to one place,
where what is written is read again and beside which nothing changes. -/
theorem resolvers_agree (tree : Tree) (path : String) :
    (∀ error, tree.item path = .error error → error = .itemNotFound path) ∧
    (∀ error, tree.level path = .error error → error = .itemNotFound path) ∧
    (∀ change error, tree.updateItem path change = .error error ↔ tree.item path = .error error) ∧
    (∀ change error, tree.updateLevel path change = .error error ↔ tree.level path = .error error) ∧
    (∀ change error, tree.updateExistingLevel path change = .error error ↔ tree.level path = .error error) ∧
    (∀ item, tree.item path = .ok item → ∃ place, tree.place? path = some place ∧
      ∀ change, ∃ after, tree.updateItem path change = .ok after ∧
        ItemWritten place item (change item) tree after ∧
        ((change item).id = item.id → after.item path = .ok (change item))) ∧
    (∀ level, tree.level path = .ok level → ∃ place, tree.place? path = some place ∧
      (∀ change, ∃ after, tree.updateLevel path change = .ok after ∧
        LevelWritten place level (change level) tree after ∧
        (itemIn? place after).map Item.own = (itemIn? place tree).map (fun item => (item.details, true)) ∧
        after.level path = .ok (change level)) ∧
      ∃ found, tree.existingLevel path = .ok found ∧ found.getD [] = level ∧
        ∀ change, ∃ after, tree.updateExistingLevel path change = .ok after ∧
          LevelWritten place level ((found.map change).getD []) tree after ∧
          (itemIn? place after).map Item.own = (itemIn? place tree).map Item.own ∧
          after.existingLevel path = .ok (found.map change)) ∧
    (∀ after, tree.updateLevel path id = .ok after →
      (after = tree ∨ ∃ place details, tree.place? path = some place ∧
        ItemWritten place (.leaf details) (.group details []) tree after) ∧
      after.level path = tree.level path ∧
      ∀ other, (after.item other).map Item.details = (tree.item other).map Item.details) ∧
    ∀ after, tree.updateExistingLevel path id = .ok after → after = tree := by
  refine ⟨fun _ => error_of_item, fun error h => (level_eq_error.mp h).2, fun _ _ => updateItem_eq_error,
    fun _ _ => updateLevel_eq_error, fun _ _ => updateExistingLevel_eq_error, ?items, ?levels, ?obtained,
    fun _ => updateExistingLevel_id⟩
  case items =>
    intro item h
    obtain ⟨place, hp, hin⟩ := place_of_item h
    refine ⟨place, hp, fun change => ?_⟩
    have hu := updateItem_at h hp change
    exact ⟨_, hu, itemWritten_alterIn hin change, fun hid => item_updateItem h hid hu⟩
  case levels =>
    intro level h
    obtain ⟨place, hp, hlevel⟩ := updateLevel_at h
    refine ⟨place, hp, hlevel, ?_⟩
    have hmap := level_eq_existingLevel tree path
    cases he : tree.existingLevel path with
    | error error => simp [h, he, Except.map] at hmap
    | ok found =>
      simp only [h, he, Except.map, Except.ok.injEq] at hmap
      subst hmap
      obtain ⟨place', hp', hexisting⟩ := updateExistingLevel_at he
      cases hp.symm.trans hp'
      exact ⟨found, rfl, rfl, hexisting⟩
  case obtained =>
    intro after h
    obtain ⟨ids, hc, hr⟩ := rewrites_of_updateLevel h
    refine ⟨updateLevel_id h, ?_, fun other => ?_⟩
    · obtain ⟨level, hl, hl'⟩ := hr.levelAt?
      rw [level_eq, level_eq, hc, Option.bind_some, Option.bind_some, hl, hl']
      rfl
    · simp only [item_map_details, hr.detailsAt?_id]

end Wayfinding.Tree
