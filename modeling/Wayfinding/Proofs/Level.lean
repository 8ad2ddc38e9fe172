import Wayfinding.Proofs.Address
import Wayfinding.Tree

namespace Wayfinding

/-- The level below an item; a leaf has an empty one. -/
def Item.sublevel (item : Item) : List Item := item.children?.getD []

namespace Tree

/-- The level at the end of a chain of IDs. -/
def levelAt? : List String → Tree → Option Tree
  | [], level => some level
  | id :: rest, level => (level.get? id).bind fun item => levelAt? rest item.sublevel

/-- What the item at the end of a chain of IDs says of itself. -/
def detailsAt? (ids : List String) (tree : Tree) : Option Details :=
  (descend? ids tree).map Item.details

theorem get?_cons_self (item : Item) (rest : Tree) : get? (item :: rest) item.id = some item := by
  simp [get?]

theorem get?_cons_ne {item : Item} {id : String} (rest : Tree) (h : item.id ≠ id) :
    get? (item :: rest) id = get? rest id := by
  simp [get?, h]

theorem get?_eq_none {level : Tree} {id : String} : level.get? id = none ↔ id ∉ level.ids := by
  simp [get?, ids]

theorem get?_append (before after : Tree) (id : String) :
    get? (before ++ after) id = (get? before id).or (get? after id) := by
  simp [get?, List.find?_append]

/-- Of siblings with one ID the first is found. -/
theorem get?_first {before : Tree} {item : Item} (after : Tree) (first : item.id ∉ ids before) :
    get? (before ++ item :: after) item.id = some item := by
  rw [get?_append, get?_eq_none.mpr first, get?_cons_self]
  rfl

theorem get?_isSome_of_mem {level : Tree} {item : Item} (h : item ∈ level) :
    ∃ found, level.get? item.id = some found := by
  cases hg : level.get? item.id with
  | none => exact absurd (List.mem_map.mpr ⟨item, h, rfl⟩) (get?_eq_none.mp hg)
  | some found => exact ⟨found, rfl⟩

theorem get?_isSome_of_mem_ids {level : Tree} {id : String} (h : id ∈ level.ids) :
    ∃ found, level.get? id = some found := by
  obtain ⟨item, hm, rfl⟩ := List.mem_map.mp h
  exact get?_isSome_of_mem hm

/-- Where siblings differ in their IDs, each item is the one that its ID means. -/
theorem get?_of_mem {level : Tree} {item : Item} (hn : level.ids.Nodup) (h : item ∈ level) :
    level.get? item.id = some item := by
  induction level with
  | nil => cases h
  | cons first rest ih =>
    simp only [ids, List.map_cons, List.nodup_cons] at hn
    rcases List.mem_cons.mp h with rfl | h
    · exact get?_cons_self item rest
    · have hne : first.id ≠ item.id := by
        intro he
        exact hn.1 (List.mem_map.mpr ⟨item, h, he.symm⟩)
      rw [get?_cons_ne rest hne]
      exact ih hn.2 h

/-- Of a level that has an item in place of another, with the same ID, only that ID reads differently. -/
theorem get?_replaced {before after : Tree} {item other : Item} {id : String}
    (hid : other.id = item.id) :
    get? (before ++ other :: after) id =
      if item.id = id ∧ id ∉ ids before then some other else get? (before ++ item :: after) id := by
  rw [get?_append, get?_append]
  by_cases hb : id ∈ ids before
  · obtain ⟨found, hf, he⟩ := List.mem_map.mp hb
    obtain ⟨first, hg⟩ := get?_isSome_of_mem hf
    rw [he] at hg
    simp [hb, hg]
  · rw [get?_eq_none.mpr hb]
    by_cases hi : item.id = id
    · rw [← hi, ← hid, get?_cons_self]
      simp [hid, hi, hb]
    · rw [get?_cons_ne after hi, get?_cons_ne after (hid ▸ hi)]
      simp [hi]

theorem descend?_cons {id : String} {rest : List String} {level : Tree} (h : rest ≠ []) :
    descend? (id :: rest) level = (level.get? id).bind fun item => descend? rest item.sublevel := by
  cases rest with
  | nil => exact absurd rfl h
  | cons next rest =>
    simp only [descend?]
    congr 1
    funext item
    cases item with
    | leaf details => cases rest <;> simp [Item.children?, Item.sublevel, descend?, get?]
    | group details children => rfl

theorem levelAt?_eq {ids : List String} {tree : Tree} (h : ids ≠ []) :
    levelAt? ids tree = (descend? ids tree).map Item.sublevel := by
  induction ids generalizing tree with
  | nil => exact absurd rfl h
  | cons id rest ih =>
    cases rest with
    | nil => cases hg : tree.get? id <;> simp [levelAt?, descend?, hg]
    | cons next rest =>
      rw [descend?_cons (by simp), levelAt?]
      cases hg : tree.get? id with
      | none => rfl
      | some item => exact ih (by simp)

theorem descend?_append {ids more : List String} {tree : Tree} (h : more ≠ []) :
    descend? (ids ++ more) tree = (levelAt? ids tree).bind (descend? more) := by
  induction ids generalizing tree with
  | nil => rfl
  | cons id rest ih =>
    rw [List.cons_append, descend?_cons (by simp [h]), levelAt?]
    cases hg : tree.get? id with
    | none => rfl
    | some item => exact ih

theorem levelAt?_append (ids more : List String) (tree : Tree) :
    levelAt? (ids ++ more) tree = (levelAt? ids tree).bind (levelAt? more) := by
  induction ids generalizing tree with
  | nil => rfl
  | cons id rest ih =>
    rw [List.cons_append, levelAt?, levelAt?]
    cases tree.get? id with
    | none => rfl
    | some item => exact ih item.sublevel

theorem detailsAt?_append {ids more : List String} {tree : Tree} (h : more ≠ []) :
    detailsAt? (ids ++ more) tree = (levelAt? ids tree).bind (detailsAt? more) := by
  simp only [detailsAt?, descend?_append h]
  cases levelAt? ids tree <;> rfl

theorem detailsAt?_singleton (id : String) (tree : Tree) :
    detailsAt? [id] tree = (tree.get? id).map Item.details := rfl

theorem detailsAt?_cons {id : String} {rest : List String} {level : Tree} (h : rest ≠ []) :
    detailsAt? (id :: rest) level = (level.get? id).bind fun item => detailsAt? rest item.sublevel := by
  simp only [detailsAt?, descend?_cons h]
  cases level.get? id <;> rfl

/-- An item further down is reached through the item above it. -/
theorem detailsAt?_prefix {ids more : List String} {tree : Tree} {details : Details} (hne : ids ≠ [])
    (h : detailsAt? (ids ++ more) tree = some details) : ∃ above, detailsAt? ids tree = some above := by
  by_cases hm : more = []
  · subst hm
    exact ⟨details, by simpa using h⟩
  · rw [detailsAt?_append hm, levelAt?_eq hne] at h
    cases hd : descend? ids tree with
    | none => simp [hd] at h
    | some item => exact ⟨item.details, by simp [detailsAt?, hd]⟩

theorem item_eq_ok {tree : Tree} {path : String} {item : Item} :
    tree.item path = .ok item ↔ ∃ ids, Path.segments? path = some ids ∧ descend? ids tree = some item := by
  rw [Tree.item, ← Option.bind_eq_some_iff]
  split
  · rename_i hf
    simp [hf]
  · rename_i hf
    simp [hf]

theorem error_of_item {tree : Tree} {path : String} {error : NavigationError}
    (h : tree.item path = .error error) : error = .itemNotFound path := by
  unfold Tree.item at h
  split at h <;> cases h
  rfl

theorem level_eq_map {tree : Tree} {path : String} (hp : path ≠ "") :
    tree.level path = (tree.item path).map Item.sublevel := by
  rw [level, if_neg hp]
  rfl

theorem existingLevel_eq_map {tree : Tree} {path : String} (hp : path ≠ "") :
    tree.existingLevel path = (tree.item path).map Item.children? := by
  rw [existingLevel, if_neg hp]

/-- A level other than the root level is below an item. -/
theorem item_of_level {tree level : Tree} {path : String} (hp : path ≠ "") (h : tree.level path = .ok level) :
    ∃ item, tree.item path = .ok item ∧ item.sublevel = level := by
  rw [level_eq_map hp] at h
  cases hi : tree.item path with
  | error error => simp [hi, Except.map] at h
  | ok item => exact ⟨item, rfl, by simpa [hi, Except.map] using h⟩

theorem item_of_existingLevel {tree : Tree} {path : String} {found : Option Tree} (hp : path ≠ "")
    (h : tree.existingLevel path = .ok found) : ∃ item, tree.item path = .ok item ∧ item.children? = found := by
  rw [existingLevel_eq_map hp] at h
  cases hi : tree.item path with
  | error error => simp [hi, Except.map] at h
  | ok item => exact ⟨item, rfl, by simpa [hi, Except.map] using h⟩

theorem level_eq (tree : Tree) (path : String) :
    tree.level path = match (Path.chain? path).bind fun ids => levelAt? ids tree with
      | some level => .ok level
      | none => .error (.itemNotFound path) := by
  by_cases hp : path = ""
  · simp [level, hp, levelAt?]
  · simp only [level, hp, if_false, item, Path.chain?]
    cases hs : Path.segments? path with
    | none => rfl
    | some ids =>
      simp only [Option.bind_some, levelAt?_eq (Path.ne_nil_of_segments hs)]
      cases descend? ids tree <;> rfl

/-- Reading a level sees nothing below a leaf. -/
theorem level_eq_existingLevel (tree : Tree) (path : String) :
    tree.level path = (tree.existingLevel path).map fun found => found.getD [] := by
  unfold level existingLevel
  split
  · rfl
  · cases tree.item path <;> rfl

theorem level_of_existingLevel {tree level : Tree} {path : String}
    (h : tree.existingLevel path = .ok (some level)) : tree.level path = .ok level := by
  rw [level_eq_existingLevel, h]
  rfl

/-- A level with items is not the empty one of a leaf. -/
theorem existingLevel_of_level {tree level : Tree} {path : String} (h : tree.level path = .ok level)
    (hne : level ≠ []) : tree.existingLevel path = .ok (some level) := by
  by_cases hp : path = ""
  · subst hp
    cases h
    rfl
  · obtain ⟨item, hi, rfl⟩ := item_of_level hp h
    rw [existingLevel_eq_map hp, hi]
    cases item with
    | leaf details => exact absurd rfl hne
    | group details children => rfl

theorem levelAt?_of_level {tree level : Tree} {path : String} {ids : List String}
    (h : tree.level path = .ok level) (hc : Path.chain? path = some ids) :
    levelAt? ids tree = some level := by
  rw [level_eq, hc, Option.bind_some] at h
  cases hl : levelAt? ids tree with
  | none => simp [hl] at h
  | some found =>
    simp only [hl, Except.ok.injEq] at h
    rw [h]

theorem chain_of_level {tree level : Tree} {path : String} (h : tree.level path = .ok level) :
    ∃ ids, Path.chain? path = some ids ∧ levelAt? ids tree = some level := by
  cases hc : Path.chain? path with
  | none => simp [level_eq, hc] at h
  | some ids => exact ⟨ids, rfl, levelAt?_of_level h hc⟩

theorem level_of_chain {tree level : Tree} {path : String} {ids : List String}
    (hc : Path.chain? path = some ids) (h : levelAt? ids tree = some level) : tree.level path = .ok level := by
  rw [level_eq, hc, Option.bind_some, h]

end Tree

end Wayfinding
