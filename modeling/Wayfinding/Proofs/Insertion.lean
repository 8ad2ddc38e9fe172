import Wayfinding.Proofs.Addressable
import Wayfinding.Proofs.Outside

namespace Wayfinding

namespace Tree

mutual

theorem checkItem_of_wellFormed : (item : Item) → Path.ValidId item.id → WellFormed item.sublevel →
    Navigation.checkItem item = .ok ()
  | .leaf _, valid, _ => if_pos valid
  | .group details children, valid, h => by
    have hv : Path.ValidId details.id := valid
    have hd : checkDuplicates [] children = .ok () :=
      checkDuplicates_eq_ok.mpr ⟨by simp [ids], h.distinct⟩
    rw [Navigation.checkItem, if_pos hv, hd]
    exact checkItems_of_wellFormed children h.valid h.inside

theorem checkItems_of_wellFormed : (items : List Item) → (∀ item ∈ items, Path.ValidId item.id) →
    (∀ item ∈ items, WellFormed item.sublevel) → Navigation.checkItems items = .ok ()
  | [], _, _ => rfl
  | first :: rest, valid, inside => by
    obtain ⟨hvalid, hothers⟩ := List.forall_mem_cons.mp valid
    obtain ⟨hinside, hdeeper⟩ := List.forall_mem_cons.mp inside
    rw [Navigation.checkItems, checkItem_of_wellFormed first hvalid hinside]
    exact checkItems_of_wellFormed rest hothers hdeeper

end

/-- The two checks accept what is well-formed by itself and new to the level. -/
theorem checks_eq_ok {level : Tree} {items : List Item} :
    Navigation.checkItems items = .ok () ∧ level.checkDuplicates items = .ok () ↔
      WellFormed items ∧ ∀ item ∈ items, item.id ∉ level.ids := by
  constructor
  · rintro ⟨sound, distinct⟩
    exact ⟨wellFormed_of_checks sound distinct, (checkDuplicates_eq_ok.mp distinct).1⟩
  · rintro ⟨h, new⟩
    exact ⟨checkItems_of_wellFormed items h.valid h.inside, checkDuplicates_eq_ok.mpr ⟨new, h.distinct⟩⟩

theorem initial_setInitialAll (flag : Bool) (items : List Item) :
    ∀ item ∈ Item.setInitialAll flag items, item.initial = flag := by
  intro item hm
  rw [Item.setInitialAll_eq_map] at hm
  obtain ⟨original, _, rfl⟩ := List.mem_map.mp hm
  exact congrArg Details.initial (details_setInitial flag original)

mutual

theorem initial_levels_setInitial (flag : Bool) : (item : Item) →
    ∀ level ∈ (item.setInitial flag).levels, ∀ deeper ∈ level, deeper.initial = flag
  | .leaf _ => by simp [Item.setInitial, Item.levels]
  | .group _ children => by
    intro level hm
    rcases List.mem_cons.mp hm with rfl | hm
    · exact initial_setInitialAll flag children
    · exact initial_levelsAll_setInitialAll flag children level hm

theorem initial_levelsAll_setInitialAll (flag : Bool) : (items : List Item) →
    ∀ level ∈ Item.levelsAll (Item.setInitialAll flag items), ∀ deeper ∈ level, deeper.initial = flag
  | [] => by simp [Item.setInitialAll, Item.levelsAll]
  | first :: rest => by
    intro level hm
    rcases List.mem_append.mp hm with hm | hm
    · exact initial_levels_setInitial flag first level hm
    · exact initial_levelsAll_setInitialAll flag rest level hm

end

theorem initial_setInitial (tree : Tree) (flag : Bool) :
    ∀ level ∈ (tree.setInitial flag).levels, ∀ item ∈ level, item.initial = flag :=
  List.forall_mem_cons.mpr ⟨initial_setInitialAll flag tree, initial_levelsAll_setInitialAll flag tree⟩

end Tree

namespace Navigation

def insertion (path : String) (index : Int) (level : Tree) (items : List Item) : Event :=
  .itemsAdded (Tree.setInitial items false) (min index.toNat level.length) path

theorem insertAt_eq_ok {nav after : Navigation} {path : String} {index : Int} {items : List Item} :
    nav.insertAt path index items = .ok after ↔
      0 ≤ index ∧ ∃ level, nav.tree.level path = .ok level ∧
        (items = [] ∧ after = nav ∨
          items ≠ [] ∧ (Tree.WellFormed items ∧ ∀ item ∈ items, item.id ∉ level.ids) ∧
            after = nav.record (insertion path index level items)) := by
  simp only [insertAt, refusal_ok, bind_ok, Int.not_lt, ← Tree.checks_eq_ok]
  refine and_congr_right fun _ => exists_congr fun level => and_congr_right fun _ => ?_
  cases items with
  | nil => simp [pure, Except.pure, eq_comm]
  | cons first rest =>
    simp only [List.isEmpty_cons, Bool.false_eq_true, if_false, bind_ok, reduceCtorEq, false_and,
      false_or, ne_eq, not_false_eq_true, true_and]
    constructor
    · rintro ⟨_, sound, _, distinct, h⟩
      exact ⟨⟨sound, distinct⟩, (Except.ok.inj h).symm⟩
    · rintro ⟨⟨sound, distinct⟩, h⟩
      exact ⟨(), sound, (), distinct, congrArg Except.ok h.symm⟩

theorem tree_record_itemsAdded (nav : Navigation) {path : String} {level : Tree} {items : List Item}
    (index : Nat) (found : nav.tree.level path = .ok level) :
    ∃ target, Path.chain? path = some target ∧
      (nav.record (.itemsAdded items index path)).tree.level path = .ok (level.insert index items) ∧
      Tree.SameOutside target nav.tree (nav.record (.itemsAdded items index path)).tree := by
  obtain ⟨tree', hw⟩ := Tree.updateLevel_of_level found (·.insert index items)
  obtain ⟨target, hc, hr⟩ := Tree.rewrites_of_updateLevel hw
  have htree : (nav.record (.itemsAdded items index path)).tree = tree' := by
    simp [record, apply, Snapshot.apply, Snapshot.fold, hw, Except.toOption]
  rw [htree]
  exact ⟨target, hc, hr.level hc found, hr.sameOutside⟩

end Navigation

/-- When an insertion is accepted, and what the tree then is: the batch stands at the index with no initial flag
at any depth, and everything else is as it was. -/
theorem Course.insertion_exact (id : Identity) (moves : List Move) (path : String) (index : Int)
    (items : List Item) :
    let nav := (run id moves).navigation
    let added := Tree.setInitial items false
    ((∃ after, nav.insertAt path index items = .ok after) ↔
      0 ≤ index ∧ (path = "" ∨ ∃ item, nav.tree.item path = .ok item) ∧
        (items = [] ∨
          (∀ level ∈ Tree.levels items,
            level.ids.Nodup ∧ ∀ item ∈ level, item.id ≠ "" ∧ '.' ∉ item.id.toList) ∧
          ∀ level, nav.tree.level path = .ok level → ∀ item ∈ items, item.id ∉ level.ids)) ∧
    (∀ after, nav.insertAt path index items = .ok after → items = [] → after = nav) ∧
    (∀ after, nav.insertAt path index items = .ok after → items ≠ [] →
      ∃ level target, nav.tree.level path = .ok level ∧ Path.chain? path = some target ∧
        after = nav.record (.itemsAdded added (min index.toNat level.length) path) ∧
        after.tree.existingLevel path = .ok (some (level.take (min index.toNat level.length) ++ added ++
          level.drop (min index.toNat level.length))) ∧
        Tree.SameOutside target nav.tree after.tree) ∧
    added = items.map (Item.setInitial false) ∧
    (∀ level ∈ Tree.levels added, ∀ item ∈ level, item.initial = false) ∧
    ∀ ids, Tree.detailsAt? ids added =
      (Tree.detailsAt? ids items).map fun details => { details with initial := false } := by
  intro nav added
  refine ⟨?_, ?_, ?_, Tree.setInitial_eq_map items false, Tree.initial_setInitial items false,
    Tree.detailsAt?_setInitial items false⟩
  · constructor
    · rintro ⟨after, h⟩
      obtain ⟨hindex, level, found, h⟩ := Navigation.insertAt_eq_ok.mp h
      refine ⟨hindex, Tree.exists_level.mp ⟨level, found⟩, h.imp And.left ?_⟩
      rintro ⟨_, ⟨sound, new⟩, _⟩
      refine ⟨Tree.wellFormed_iff_levels.mp sound, fun other ho => ?_⟩
      rw [found] at ho
      cases ho
      exact new
    · rintro ⟨hindex, hpath, hbatch⟩
      obtain ⟨level, found⟩ := Tree.exists_level.mpr hpath
      by_cases he : items = []
      · exact ⟨nav, Navigation.insertAt_eq_ok.mpr ⟨hindex, level, found, .inl ⟨he, rfl⟩⟩⟩
      · obtain ⟨sound, new⟩ := hbatch.resolve_left he
        exact ⟨_, Navigation.insertAt_eq_ok.mpr ⟨hindex, level, found,
          .inr ⟨he, ⟨Tree.wellFormed_iff_levels.mpr sound, new level found⟩, rfl⟩⟩⟩
  · intro after h he
    obtain ⟨_, _, _, ⟨_, h⟩ | ⟨hne, _⟩⟩ := Navigation.insertAt_eq_ok.mp h
    · exact h
    · exact absurd he hne
  · intro after h hne
    obtain ⟨_, level, found, ⟨he, _⟩ | ⟨_, _, h⟩⟩ := Navigation.insertAt_eq_ok.mp h
    · exact absurd he hne
    · obtain ⟨target, hc, hl, hs⟩ := nav.tree_record_itemsAdded (min index.toNat level.length) found
      have hadded : added ≠ [] := by simpa [added, Tree.setInitial_eq_map] using hne
      have hsome : level.insert (min index.toNat level.length) added ≠ [] := by
        simp [Tree.insert, hadded]
      subst h
      exact ⟨level, target, found, hc, rfl, Tree.existingLevel_of_level hl hsome, hs⟩

end Wayfinding
