import Mathlib.Data.List.Nodup
import Wayfinding.Proofs.Addressable
import Wayfinding.Proofs.Occurrence

namespace Wayfinding

mutual

/-- The item and all below it, each item in front of what is below it. -/
def Item.traverse : Item → List Item
  | .leaf details => [.leaf details]
  | .group details children => .group details children :: Item.traverseAll children

def Item.traverseAll : List Item → List Item
  | [] => []
  | item :: rest => item.traverse ++ Item.traverseAll rest

end

mutual

/-- The traversal of an item, with the chain of IDs that each item stands under. -/
def Item.entries : Item → List (List String × Item)
  | .leaf details => [([details.id], .leaf details)]
  | .group details children =>
    ([details.id], .group details children) ::
      (Item.entriesAll children).map fun entry => (details.id :: entry.1, entry.2)

def Item.entriesAll : List Item → List (List String × Item)
  | [] => []
  | item :: rest => item.entries ++ Item.entriesAll rest

end

namespace Tree

/-- Every item of a tree, depth first. -/
def traversal (tree : Tree) : List Item := Item.traverseAll tree

mutual

theorem traverse_eq : (item : Item) → item.traverse = item.entries.map Prod.snd
  | .leaf _ => rfl
  | .group details children => by
    rw [Item.traverse, Item.entries, traverseAll_eq children, List.map_cons, List.map_map]
    rfl

theorem traverseAll_eq : (items : List Item) → Item.traverseAll items = (Item.entriesAll items).map Prod.snd
  | [] => rfl
  | item :: rest => by
    rw [Item.traverseAll, Item.entriesAll, List.map_append, traverse_eq item, traverseAll_eq rest]

end

mutual

theorem itemPaths_eq (parent : String) : (item : Item) →
    itemPaths parent item = item.entries.map fun entry => entry.1.foldl Path.join parent
  | .leaf _ => rfl
  | .group details children => by
    rw [itemPaths, Item.entries, levelPaths_eq (Path.join parent details.id) children, List.map_cons,
      List.map_map]
    rfl

theorem levelPaths_eq (parent : String) : (items : List Item) →
    levelPaths parent items = (Item.entriesAll items).map fun entry => entry.1.foldl Path.join parent
  | [] => rfl
  | item :: rest => by
    rw [levelPaths, Item.entriesAll, List.map_append, itemPaths_eq parent item, levelPaths_eq parent rest]

end

theorem paths_eq (tree : Tree) : tree.paths = ((Item.entriesAll tree).map Prod.fst).map Path.ofChain := by
  rw [paths, levelPaths_eq, List.map_map]
  rfl

theorem entriesAll_eq_flatMap (level : Tree) : Item.entriesAll level = level.flatMap Item.entries := by
  induction level with
  | nil => rfl
  | cons item rest ih => rw [Item.entriesAll, ih, List.flatMap_cons]

theorem entries_eq (item : Item) :
    item.entries = ([item.id], item) ::
      (Item.entriesAll item.sublevel).map fun entry => (item.id :: entry.1, entry.2) := by
  cases item <;> rfl

/-- The traversal meets what stands in the tree, and nothing else. -/
theorem WellFormed.mem_entries {tree : Tree} (h : WellFormed tree) {ids : List String} {item : Item} :
    (ids, item) ∈ Item.entriesAll tree ↔ Holds tree ids item := by
  induction h generalizing ids item with
  | @intro level _ _ _ ih =>
    rw [entriesAll_eq_flatMap, List.mem_flatMap]
    constructor
    · rintro ⟨first, hm, he⟩
      rw [entries_eq, List.mem_cons, List.mem_map] at he
      rcases he with he | ⟨⟨rest, deeper⟩, hr, he⟩
      · cases he
        exact .here hm
      · cases he
        exact .inside hm ((ih first hm).mp hr)
    · intro hh
      cases hh with
      | here hm =>
        refine ⟨item, hm, ?_⟩
        rw [entries_eq]
        exact List.mem_cons_self
      | inside hm held =>
        refine ⟨_, hm, ?_⟩
        rw [entries_eq]
        exact List.mem_cons_of_mem _ (List.mem_map.mpr ⟨_, (ih _ hm).mpr held, rfl⟩)

theorem WellFormed.holds_of_chain {tree : Tree} (h : WellFormed tree) {ids : List String}
    (hm : ids ∈ (Item.entriesAll tree).map Prod.fst) : ∃ item, Holds tree ids item := by
  obtain ⟨⟨_, item⟩, he, rfl⟩ := List.mem_map.mp hm
  exact ⟨item, h.mem_entries.mp he⟩

theorem chains_eq (item : Item) :
    item.entries.map Prod.fst =
      [item.id] :: ((Item.entriesAll item.sublevel).map Prod.fst).map (item.id :: ·) := by
  rw [entries_eq, List.map_cons, List.map_map, List.map_map]
  rfl

theorem head_of_chain {item : Item} {ids : List String} (hm : ids ∈ item.entries.map Prod.fst) :
    ∃ rest, ids = item.id :: rest := by
  rw [chains_eq, List.mem_cons, List.mem_map] at hm
  rcases hm with rfl | ⟨rest, _, rfl⟩
  · exact ⟨[], rfl⟩
  · exact ⟨rest, rfl⟩

/-- No two items stand under one chain: below an item because its level is well-formed, and beside it because
the chains begin with different IDs. -/
theorem WellFormed.nodup_chains {tree : Tree} (h : WellFormed tree) :
    ((Item.entriesAll tree).map Prod.fst).Nodup := by
  induction h with
  | @intro level distinct _ inside ih =>
    rw [entriesAll_eq_flatMap, List.map_flatMap, List.nodup_flatMap]
    constructor
    · intro item hm
      rw [chains_eq, List.nodup_cons]
      refine ⟨fun hself => ?_, (ih item hm).map List.cons_injective⟩
      obtain ⟨ids, hi, he⟩ := List.mem_map.mp hself
      obtain ⟨_, hh⟩ := (inside item hm).holds_of_chain hi
      exact hh.ne_nil (List.cons.inj he).2
    · have hpairs : level.Pairwise fun first second => first.id ≠ second.id := List.pairwise_map.mp distinct
      refine hpairs.imp fun {first second} hne ids hfirst hsecond => ?_
      obtain ⟨_, rfl⟩ := head_of_chain hfirst
      obtain ⟨_, he⟩ := head_of_chain hsecond
      exact hne (List.cons.inj he).1

theorem WellFormed.map_item_paths {tree : Tree} (h : WellFormed tree) :
    tree.paths.map tree.item = tree.traversal.map .ok := by
  rw [paths_eq, traversal, traverseAll_eq, List.map_map, List.map_map, List.map_map]
  exact List.map_congr_left fun entry hm => h.item_of_holds (h.mem_entries.mp hm)

theorem WellFormed.nodup_paths {tree : Tree} (h : WellFormed tree) : tree.paths.Nodup := by
  rw [paths_eq]
  refine h.nodup_chains.map_on fun ids hi other ho he => ?_
  obtain ⟨_, hh⟩ := h.holds_of_chain hi
  obtain ⟨_, hh'⟩ := h.holds_of_chain ho
  have hs := Path.segments?_ofChain hh.ne_nil (h.valid_of_holds hh)
  rw [he, Path.segments?_ofChain hh'.ne_nil (h.valid_of_holds hh')] at hs
  exact (Option.some.inj hs).symm

theorem WellFormed.mem_paths {tree : Tree} (h : WellFormed tree) {path : String} :
    (∃ item, tree.item path = .ok item) ↔ path ∈ tree.paths := by
  rw [paths_eq, List.mem_map]
  constructor
  · rintro ⟨item, hi⟩
    obtain ⟨ids, hs, hd⟩ := item_eq_ok.mp hi
    have hm := h.mem_entries.mpr (holds_of_descend? hd)
    exact ⟨ids, List.mem_map.mpr ⟨_, hm, rfl⟩, Path.ofChain_of_segments hs⟩
  · rintro ⟨ids, hm, rfl⟩
    obtain ⟨item, hh⟩ := h.holds_of_chain hm
    exact ⟨item, h.item_of_holds hh⟩

/-- Nothing is found below a leaf, whatever is below its path. -/
theorem item_below_leaf {tree : Tree} {path : String} {details : Details}
    (h : tree.item path = .ok (.leaf details)) (rest : String) (item : Item) :
    tree.item (path ++ "." ++ rest) ≠ .ok item := by
  intro hbelow
  obtain ⟨ids, hs, hd⟩ := item_eq_ok.mp h
  obtain ⟨longer, hs', hd'⟩ := item_eq_ok.mp hbelow
  have hpieces : longer.map String.toList = ids.map String.toList ++ Path.pieces rest.toList := by
    rw [← (Path.pieces_of_segments hs').1, ← (Path.pieces_of_segments hs).1, ← Path.pieces_append]
    simp [Path.separator]
  obtain ⟨before, more, rfl, hbefore, hmore⟩ := List.map_eq_append_iff.mp hpieces
  have hids : before = ids := List.map_injective_iff.mpr (fun _ _ => String.toList_inj.mp) hbefore
  have hne : more ≠ [] := by
    rintro rfl
    exact Path.pieces_ne_nil _ hmore.symm
  rw [hids, descend?_append hne, levelAt?_eq (Path.ne_nil_of_segments hs), hd] at hd'
  cases more with
  | nil => exact hne rfl
  | cons next others => cases others <;> cases hd'

/-- In a well-formed tree the paths are listed once each, in the order of a depth-first traversal, and a text leads
to an item exactly if it is listed. -/
theorem paths_exact {tree : Tree} (h : WellFormed tree) :
    tree.paths.Nodup ∧
    tree.paths.map tree.item = tree.traversal.map .ok ∧
    (∀ path, (∃ item, tree.item path = .ok item) ↔ path ∈ tree.paths) ∧
    (∀ path, path ∉ tree.paths → tree.item path = .error (.itemNotFound path)) ∧
    (∀ path, path = "" ∨ Path.segments? path = none → path ∉ tree.paths) ∧
    ∀ path details rest, tree.item path = .ok (.leaf details) → path ++ "." ++ rest ∉ tree.paths := by
  refine ⟨h.nodup_paths, h.map_item_paths, fun path => h.mem_paths, fun path hn => ?_, fun path hp hm => ?_,
    fun path details rest hl hm => ?_⟩
  · cases hi : tree.item path with
    | ok item => exact absurd (h.mem_paths.mp ⟨item, hi⟩) hn
    | error error => rw [error_of_item hi]
  · obtain ⟨item, hi⟩ := h.mem_paths.mpr hm
    obtain ⟨ids, hs, _⟩ := item_eq_ok.mp hi
    rcases hp with rfl | hp
    · rw [Path.segments?_empty] at hs
      cases hs
    · rw [hp] at hs
      cases hs
  · obtain ⟨item, hi⟩ := h.mem_paths.mpr hm
    exact item_below_leaf hl rest item hi

theorem paths_exact_nested :
    WellFormed Sample.nestedItems ∧
      paths Sample.nestedItems = ["foo", "bar", "bar.baz", "bar.baz.foo", "bar.baz.bar", "bar.baz.baz"] ∧
      (paths Sample.nestedItems).map (item Sample.nestedItems) = (traversal Sample.nestedItems).map .ok ∧
      "bar.baz.foo" ++ "." ++ "bar" ∉ paths Sample.nestedItems := by
  have hw : WellFormed Sample.nestedItems := by decide
  have hleaf : item Sample.nestedItems "bar.baz.foo" =
      .ok (.staticLink "foo" "Foo" "/bar/baz/foo") := by decide +kernel
  obtain ⟨_, hmap, _, _, _, hbelow⟩ := paths_exact hw
  exact ⟨hw, by decide +kernel, hmap, hbelow _ _ "bar" hleaf⟩

end Tree

end Wayfinding
