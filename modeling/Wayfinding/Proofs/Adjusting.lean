import Wayfinding.Proofs.Resolution
import Wayfinding.Proofs.WellFormed

namespace Wayfinding

namespace Item

/-- The item with a change made to its children of this ID. -/
def onChild (id : String) (change : Item → Item) (item : Item) : Item :=
  item.mapChildren (List.map fun child => if child.id = id then change child else child)

/-- The item with a change made to whatever a chain of IDs leads to below it. -/
def adjust (change : Item → Item) : List String → Item → Item
  | [], item => change item
  | id :: rest, item => item.onChild id (adjust change rest)

/-- The item as a group with a change made to the level below it. A leaf has an empty one. -/
def fill (change : Tree → Tree) (item : Item) : Item := item.withChildren (change item.sublevel)

theorem details_onChild (id : String) (change : Item → Item) (item : Item) :
    (item.onChild id change).details = item.details := by
  cases item <;> rfl

theorem id_adjust {change : Item → Item} (keeps : ∀ item, (change item).id = item.id) (ids : List String)
    (item : Item) : (item.adjust change ids).id = item.id := by
  cases ids with
  | nil => exact keeps item
  | cons id rest => exact congrArg Details.id (details_onChild id _ item)

theorem mapChildren_map (first second : Item → Item) (item : Item) :
    (item.mapChildren (List.map first)).mapChildren (List.map second) =
      item.mapChildren (List.map (second ∘ first)) := by
  cases item with
  | leaf details => rfl
  | group details children => exact congrArg (group details) List.map_map

/-- Of two changes to the children of one ID the second sees what the first has made. -/
theorem onChild_onChild (id : String) {first : Item → Item} (keeps : ∀ item, (first item).id = item.id)
    (second : Item → Item) (item : Item) :
    (item.onChild id first).onChild id second = item.onChild id (second ∘ first) := by
  rw [onChild, onChild, mapChildren_map, onChild]
  congr 2
  funext child
  by_cases hid : child.id = id <;> simp [hid, keeps]

theorem onChild_comm {id other : String} (h : id ≠ other) {first second : Item → Item}
    (keeps : ∀ item, (first item).id = item.id) (keeps' : ∀ item, (second item).id = item.id) (item : Item) :
    (item.onChild id first).onChild other second = (item.onChild other second).onChild id first := by
  rw [onChild, onChild, mapChildren_map, onChild, onChild, mapChildren_map]
  congr 2
  funext child
  by_cases hid : child.id = id
  · have hother : child.id ≠ other := fun he => h (hid.symm.trans he)
    simp [hid, keeps, h]
  · by_cases hother : child.id = other <;> simp [hid, hother, keeps', Ne.symm h]

theorem adjust_adjust {first : Item → Item} (keeps : ∀ item, (first item).id = item.id)
    (second : Item → Item) (ids : List String) (item : Item) :
    (item.adjust first ids).adjust second ids = item.adjust (second ∘ first) ids := by
  induction ids generalizing item with
  | nil => rfl
  | cons id rest ih =>
    have hrest : adjust second rest ∘ adjust first rest = adjust (second ∘ first) rest := funext ih
    rw [adjust, adjust, onChild_onChild id (id_adjust keeps rest), hrest, adjust]

/-- Adjustments with different chains can change places, if the one with the shorter chain, where one chain goes on
from the other, is indifferent to what the other does to a child. -/
theorem adjust_comm {first second : Item → Item} (keeps : ∀ item, (first item).id = item.id)
    (keeps' : ∀ item, (second item).id = item.id) {ids others : List String} (hne : ids ≠ others)
    (above : ∀ id rest, others = ids ++ id :: rest → ∀ item,
      first (item.onChild id (adjust second rest)) = (first item).onChild id (adjust second rest))
    (below : ∀ id rest, ids = others ++ id :: rest → ∀ item,
      second (item.onChild id (adjust first rest)) = (second item).onChild id (adjust first rest))
    (item : Item) :
    (item.adjust first ids).adjust second others = (item.adjust second others).adjust first ids := by
  induction ids generalizing others item with
  | nil =>
    cases others with
    | nil => exact absurd rfl hne
    | cons id rest => exact (above id rest rfl item).symm
  | cons id rest ih =>
    cases others with
    | nil => exact below id rest rfl item
    | cons other more =>
      rw [adjust, adjust, adjust, adjust]
      by_cases hid : id = other
      · subst hid
        have hrest : rest ≠ more := fun he => hne (congrArg (id :: ·) he)
        have hboth : adjust second more ∘ adjust first rest = adjust first rest ∘ adjust second more :=
          funext fun child => ih hrest (fun i r he => above i r (congrArg (id :: ·) he))
            (fun i r he => below i r (congrArg (id :: ·) he)) child
        rw [onChild_onChild id (id_adjust keeps rest), onChild_onChild id (id_adjust keeps' more), hboth]
      · exact onChild_comm hid (id_adjust keeps rest) (id_adjust keeps' more) item

end Item

namespace Tree

/-- Where siblings differ in their IDs, the item that was found is the only one that is changed. -/
theorem rooted_onChild {before after : Tree} {item : Item} (hn : (ids (before ++ item :: after)).Nodup)
    (change : Item → Item) :
    (rooted (before ++ item :: after)).onChild item.id change = rooted (before ++ change item :: after) := by
  obtain ⟨hbefore, hafter⟩ := not_mem_beside hn
  have hbeside : ∀ level : Tree, item.id ∉ ids level →
      level.map (fun child => if child.id = item.id then change child else child) = level := by
    intro level hno
    refine (List.map_congr_left fun child hm => ?_).trans (List.map_id level)
    refine if_neg fun he => hno ?_
    exact he ▸ List.mem_map_of_mem hm
  refine congrArg rooted ?_
  rw [List.map_append, List.map_cons, hbeside before hbefore, hbeside after hafter, if_pos rfl]

theorem adjust_group (change : Item → Item) (id : String) (rest : List String) (details : Details)
    (children : List Item) :
    (Item.group details children).adjust change (id :: rest) =
      .group details ((rooted children).adjust change (id :: rest)).sublevel := rfl

theorem rooted_alter? {change : Item → Item} {ids : List String} {tree tree' : Tree} (hw : WellFormed tree)
    (h : alter? change ids tree = some tree') : tree'.rooted = tree.rooted.adjust change ids := by
  induction ids generalizing tree tree' with
  | nil => cases h
  | cons id rest ih =>
    cases rest with
    | nil =>
      obtain ⟨before, item, item', after, rfl, rfl, _, hc, rfl⟩ := change?_eq_some h
      cases hc
      exact (rooted_onChild hw.distinct change).symm
    | cons next more =>
      obtain ⟨before, item, item', after, rfl, rfl, _, hc, rfl⟩ := change?_eq_some h
      cases item with
      | leaf details => cases hc
      | group details children =>
        obtain ⟨children', ha, rfl⟩ := Option.map_eq_some_iff.mp hc
        have hinside : WellFormed children := hw.inside (.group details children) (by simp)
        have hchildren := ih hinside ha
        have hitem : Item.group details children' =
            (Item.group details children).adjust change (next :: more) := by
          rw [adjust_group, ← hchildren]
          rfl
        rw [hitem]
        exact (rooted_onChild hw.distinct _).symm

theorem rooted_updateItem {change : Item → Item} {path : String} {ids : List String} {tree tree' : Tree}
    (hw : WellFormed tree) (hs : Path.segments? path = some ids)
    (h : tree.updateItem path change = .ok tree') : tree'.rooted = tree.rooted.adjust change ids := by
  obtain ⟨_, hs', ha⟩ := updateItem_eq_ok.mp h
  cases hs.symm.trans hs'
  exact rooted_alter? hw ha

theorem rooted_updateLevel {change : Tree → Tree} {path : String} {ids : List String} {tree tree' : Tree}
    (hw : WellFormed tree) (hc : Path.chain? path = some ids) (h : tree.updateLevel path change = .ok tree') :
    tree'.rooted = tree.rooted.adjust (Item.fill change) ids := by
  unfold updateLevel at h
  split at h
  · rename_i hp
    subst hp
    cases hc
    cases h
    rfl
  · rename_i hp
    rw [Path.chain?, if_neg hp] at hc
    exact rooted_updateItem hw hc h

theorem rooted_updateExistingLevel {change : Tree → Tree} {path : String} {ids : List String}
    {tree tree' : Tree} (hw : WellFormed tree) (hc : Path.chain? path = some ids)
    (h : tree.updateExistingLevel path change = .ok tree') :
    tree'.rooted = tree.rooted.adjust (Item.mapChildren change) ids := by
  by_cases hp : path = ""
  · subst hp
    cases hc
    cases h
    rfl
  · rw [Path.chain?, if_neg hp] at hc
    rw [updateExistingLevel_eq hp] at h
    exact rooted_updateItem hw hc h

end Tree

namespace Snapshot

theorem eq_of_rooted {state state' : Snapshot} (hid : state.id = state'.id)
    (hversion : state.version = state'.version) (hname : state.name = state'.name)
    (htree : state.tree.rooted = state'.tree.rooted) : state = state' := by
  obtain ⟨id, version, name, tree⟩ := state
  obtain rfl := hid
  obtain rfl := hversion
  obtain rfl := hname
  obtain rfl := congrArg Item.sublevel htree
  rfl

variable {state : Snapshot} {path : String} {level : Tree} {ids : List String}

/-- An addition adjusts the item that its path leads to, which becomes a group. -/
theorem rooted_itemsAdded (hw : state.tree.WellFormed) (found : state.tree.level path = .ok level)
    (hc : Path.chain? path = some ids) (items : List Item) (index : Nat) :
    (state.apply (.itemsAdded items index path)).tree.rooted =
      state.tree.rooted.adjust (Item.fill (·.insert index items)) ids := by
  obtain ⟨tree', hu⟩ := Tree.updateLevel_of_level found (·.insert index items)
  have htree : (state.apply (.itemsAdded items index path)).tree = tree' := by
    simp [apply, fold, hu, Except.toOption]
  rw [htree]
  exact Tree.rooted_updateLevel hw hc hu

/-- A sorting adjusts the item that its path leads to, and leaves a leaf alone. -/
theorem rooted_sorted (hw : state.tree.WellFormed) (found : state.tree.level path = .ok level)
    (hc : Path.chain? path = some ids) (order : List String) :
    (state.apply (.sorted order path)).tree.rooted =
      state.tree.rooted.adjust (Item.mapChildren (Tree.sort order)) ids := by
  obtain ⟨tree', hu⟩ := Tree.updateExistingLevel_of_level found (Tree.sort order)
  have htree : (state.apply (.sorted order path)).tree = tree' := by
    simp [apply, fold, hu, Except.toOption]
  rw [htree]
  exact Tree.rooted_updateExistingLevel hw hc hu

end Snapshot

end Wayfinding
