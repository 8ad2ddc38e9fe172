import Wayfinding.Proofs.WellFormed

namespace Wayfinding.Tree

/-- The item stands in the tree under a chain of IDs. Unlike a look-up this does not stop at the first item
of an ID. -/
inductive Holds : Tree → List String → Item → Prop where
  | here {level : Tree} {item : Item} (mem : item ∈ level) : Holds level [item.id] item
  | inside {level : Tree} {item deeper : Item} {ids : List String} (mem : item ∈ level)
      (held : Holds item.sublevel ids deeper) : Holds level (item.id :: ids) deeper

theorem Holds.ne_nil {tree : Tree} {ids : List String} {item : Item} (h : Holds tree ids item) :
    ids ≠ [] := by
  cases h <;> simp

theorem holds_of_descend? {tree : Tree} {ids : List String} {item : Item}
    (h : descend? ids tree = some item) : Holds tree ids item := by
  induction ids generalizing tree with
  | nil => cases h
  | cons id rest ih =>
    by_cases hr : rest = []
    · subst hr
      have hg : tree.get? id = some item := h
      rw [← get?_id hg]
      exact .here (get?_mem hg)
    · rw [descend?_cons hr] at h
      obtain ⟨first, hg, hd⟩ := Option.bind_eq_some_iff.mp h
      rw [← get?_id hg]
      exact .inside (get?_mem hg) (ih hd)

theorem WellFormed.descend?_of_holds {tree : Tree} {ids : List String} {item : Item}
    (hw : WellFormed tree) (h : Holds tree ids item) : descend? ids tree = some item := by
  induction h with
  | here mem => exact get?_of_mem hw.distinct mem
  | inside mem held ih =>
    rw [descend?_cons held.ne_nil, get?_of_mem hw.distinct mem]
    exact ih (hw.inside _ mem)

theorem WellFormed.valid_of_holds {tree : Tree} {ids : List String} {item : Item}
    (hw : WellFormed tree) (h : Holds tree ids item) : ∀ id ∈ ids, Path.ValidId id := by
  induction h with
  | here mem => simpa using hw.valid _ mem
  | inside mem _ ih =>
    intro id hi
    rcases List.mem_cons.mp hi with rfl | hi
    · exact hw.valid _ mem
    · exact ih (hw.inside _ mem) id hi

theorem WellFormed.item_of_holds {tree : Tree} {ids : List String} {item : Item}
    (hw : WellFormed tree) (h : Holds tree ids item) : tree.item (Path.ofChain ids) = .ok item := by
  have hs := Path.segments?_ofChain h.ne_nil (hw.valid_of_holds h)
  simp [Tree.item, hs, hw.descend?_of_holds h]

theorem WellFormed.detailsAt?_of_holds {tree : Tree} {ids : List String} {item : Item}
    (hw : WellFormed tree) (h : Holds tree ids item) : detailsAt? ids tree = some item.details := by
  simp [detailsAt?, hw.descend?_of_holds h]

theorem holds_of_detailsAt? {tree : Tree} {ids : List String} {details : Details}
    (h : detailsAt? ids tree = some details) : ∃ item, Holds tree ids item ∧ item.details = details := by
  obtain ⟨item, hd, he⟩ := Option.map_eq_some_iff.mp h
  exact ⟨item, holds_of_descend? hd, he⟩

/-- An item that a path leads to stands under the segments of the path. -/
theorem detailsAt?_of_item {tree : Tree} {path : String} {item : Item} (h : tree.item path = .ok item) :
    ∃ ids, Path.segments? path = some ids ∧ detailsAt? ids tree = some item.details := by
  obtain ⟨ids, hs, hd⟩ := item_eq_ok.mp h
  exact ⟨ids, hs, by rw [detailsAt?, hd, Option.map_some]⟩

end Wayfinding.Tree
