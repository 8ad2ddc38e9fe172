import Wayfinding.Proofs.Replay
import Wayfinding.Proofs.WellFormed

namespace Wayfinding

mutual

/-- The levels inside an item, at every depth. -/
def Item.levels : Item → List Tree
  | .leaf _ => []
  | .group _ children => children :: Item.levelsAll children

def Item.levelsAll : List Item → List Tree
  | [] => []
  | item :: rest => item.levels ++ Item.levelsAll rest

end

namespace Tree

/-- Every level of a tree: the root level, and the children of every group. -/
def levels (tree : Tree) : List Tree := tree :: Item.levelsAll tree

/-- Siblings differ in their IDs, and each ID can be addressed. -/
def Addressable (level : Tree) : Prop := level.ids.Nodup ∧ ∀ item ∈ level, Path.ValidId item.id

instance (level : Tree) : Decidable level.Addressable :=
  inferInstanceAs (Decidable (level.ids.Nodup ∧ ∀ item ∈ level, Path.ValidId item.id))

mutual

theorem addressable_item : (item : Item) → WellFormed item.sublevel →
    ∀ level ∈ item.levels, level.Addressable
  | .leaf _, _ => by simp [Item.levels]
  | .group _ children, h => by
    intro level hm
    rcases List.mem_cons.mp hm with rfl | hm
    · exact ⟨h.distinct, h.valid⟩
    · exact addressable_items children h.inside level hm

theorem addressable_items : (items : List Item) → (∀ item ∈ items, WellFormed item.sublevel) →
    ∀ level ∈ Item.levelsAll items, level.Addressable
  | [], _ => by simp [Item.levelsAll]
  | first :: rest, h => by
    obtain ⟨hfirst, hrest⟩ := List.forall_mem_cons.mp h
    intro level hm
    rcases List.mem_append.mp hm with hm | hm
    · exact addressable_item first hfirst level hm
    · exact addressable_items rest hrest level hm

end

mutual

theorem wellFormed_sublevel : (item : Item) → (∀ level ∈ item.levels, level.Addressable) →
    WellFormed item.sublevel
  | .leaf _, _ => wellFormed_nil
  | .group _ children, h => by
    obtain ⟨⟨distinct, valid⟩, hrest⟩ := List.forall_mem_cons.mp h
    exact .intro distinct valid (wellFormed_sublevels children hrest)

theorem wellFormed_sublevels : (items : List Item) →
    (∀ level ∈ Item.levelsAll items, level.Addressable) → ∀ item ∈ items, WellFormed item.sublevel
  | [], _ => by simp
  | first :: rest, h => by
    obtain ⟨hfirst, hrest⟩ := List.forall_mem_append.mp h
    intro item hm
    rcases List.mem_cons.mp hm with he | hm
    · exact he ▸ wellFormed_sublevel first hfirst
    · exact wellFormed_sublevels rest hrest item hm

end

theorem wellFormed_iff_levels {tree : Tree} :
    WellFormed tree ↔ ∀ level ∈ tree.levels, level.Addressable := by
  constructor
  · intro h
    refine List.forall_mem_cons.mpr ⟨⟨h.distinct, h.valid⟩, ?_⟩
    exact addressable_items tree h.inside
  · intro h
    obtain ⟨⟨distinct, valid⟩, hrest⟩ := List.forall_mem_cons.mp h
    exact .intro distinct valid (wellFormed_sublevels tree hrest)

instance (tree : Tree) : Decidable tree.WellFormed := decidable_of_iff _ wellFormed_iff_levels.symm

end Tree

namespace Course

theorem wellFormed_step {course : Course} (h : course.navigation.tree.WellFormed) (move : Move) :
    (course.step move).navigation.tree.WellFormed := by
  cases move with
  | attempt intent =>
    obtain ⟨events, hdecided, hafter⟩ := Navigation.attempt_decided course.navigation intent
    simp only [step, hafter, Navigation.recordAll_toSnapshot]
    exact hdecided.wellFormed h
  | drain => exact h

theorem wellFormed_foldl {course : Course} (h : course.navigation.tree.WellFormed)
    (moves : List Move) : (moves.foldl step course).navigation.tree.WellFormed := by
  induction moves generalizing course with
  | nil => exact h
  | cons move rest ih => exact ih (wellFormed_step h move)

theorem wellFormed_run (id : Identity) (moves : List Move) : (run id moves).navigation.tree.WellFormed :=
  wellFormed_foldl Tree.wellFormed_nil moves

/-- At every level of a navigation siblings differ in their IDs, and no ID is empty or has a separator in it. -/
theorem addressable_run (id : Identity) (moves : List Move) :
    ∀ level ∈ (run id moves).navigation.tree.levels,
      level.ids.Nodup ∧ ∀ item ∈ level, item.id ≠ "" ∧ '.' ∉ item.id.toList :=
  Tree.wellFormed_iff_levels.mp (wellFormed_run id moves)

/-- A batch that enters a level three deep, and one that is refused there. -/
def deepMoves : List Move :=
  [.attempt (.create "main" Sample.nestedItems), .drain,
   .attempt (.appendAt "bar.baz" [.new "qux" .label]), .attempt (.appendAt "bar.baz" Sample.flatItems)]

theorem addressable_deep :
    ∃ level ∈ (run (.ofSeed 1) deepMoves).navigation.tree.levels,
      level.ids = ["foo", "bar", "baz", "qux"] ∧ level.ids.Nodup := by
  let level : Tree := ((run (.ofSeed 1) deepMoves).navigation.tree.level "bar.baz").toOption.getD []
  have found : level ∈ (run (.ofSeed 1) deepMoves).navigation.tree.levels := by decide +kernel
  exact ⟨level, found, by decide +kernel, (addressable_run (.ofSeed 1) deepMoves level found).1⟩

end Course

end Wayfinding
