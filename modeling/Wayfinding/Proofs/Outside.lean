import Wayfinding.Proofs.Rewriting

namespace Wayfinding.Tree

/-- Two trees that differ at most in the level at a chain of IDs and in what is below that level. -/
structure SameOutside (target : List String) (tree tree' : Tree) : Prop where
  /-- Every item outside stands where it stood and says the same of itself. -/
  details : ∀ ids, ids = target ∨ ¬target <+: ids → detailsAt? ids tree' = detailsAt? ids tree
  /-- Every other level has the same items in the same order, if not for what is below them. -/
  order : ∀ ids, ¬target <+: ids →
    (levelAt? ids tree').map (List.map Item.details) = (levelAt? ids tree).map (List.map Item.details)
  /-- An item that the level is not below of is the same with its whole subtree. -/
  whole : ∀ ids, ¬ids <+: target → ¬target <+: ids → descend? ids tree' = descend? ids tree

theorem SameOutside.refl (target : List String) (tree : Tree) : SameOutside target tree tree :=
  ⟨fun _ _ => rfl, fun _ _ => rfl, fun _ _ _ => rfl⟩

variable {change : Tree → Tree} {target : List String} {tree tree' : Tree}

theorem exists_level {path : String} :
    (∃ level, tree.level path = .ok level) ↔ path = "" ∨ ∃ item, tree.item path = .ok item := by
  unfold level
  split
  · rename_i hp
    simp [hp]
  · rename_i hp
    cases tree.item path <;> simp [hp, Except.map]

theorem level_eq_error {path : String} {error : NavigationError} :
    tree.level path = .error error ↔
      (path ≠ "" ∧ ∀ item, tree.item path ≠ .ok item) ∧ error = .itemNotFound path := by
  have hnone : (¬∃ level, tree.level path = .ok level) ↔
      path ≠ "" ∧ ∀ item, tree.item path ≠ .ok item := by
    rw [exists_level, not_or, not_exists]
  rw [← hnone, level_eq]
  split
  · simp
  · simp [eq_comm]

theorem get?_rewritten {before : Tree} {item item' : Item} (after : Tree) (first : item.id ∉ ids before)
    (same : item'.details = item.details) (id : String) :
    (id = item.id ∧ get? (before ++ item :: after) id = some item ∧
        get? (before ++ item' :: after) id = some item') ∨
      (id ≠ item.id ∧ get? (before ++ item' :: after) id = get? (before ++ item :: after) id) := by
  rw [get?_replaced (id_eq_of_details same)]
  by_cases hid : id = item.id
  · subst hid
    exact .inl ⟨rfl, get?_first after first, if_pos ⟨rfl, first⟩⟩
  · exact .inr ⟨hid, if_neg fun hf => hid hf.1.symm⟩

theorem Rewrites.order_outside (h : Rewrites change target tree tree') {ids : List String}
    (ho : ¬target <+: ids) :
    (Tree.levelAt? ids tree').map (List.map Item.details) =
      (Tree.levelAt? ids tree).map (List.map Item.details) := by
  induction h generalizing ids with
  | here level => exact absurd List.nil_prefix ho
  | @inside target before after item item' first same deeper ih =>
    cases ids with
    | nil => simp [Tree.levelAt?, same]
    | cons id rest =>
      simp only [Tree.levelAt?]
      rcases get?_rewritten after first same id with ⟨rfl, hg, hg'⟩ | ⟨_, hg⟩
      · rw [hg, hg']
        exact ih fun hp => ho (List.cons_prefix_cons.mpr ⟨rfl, hp⟩)
      · rw [hg]

theorem Rewrites.whole_outside (h : Rewrites change target tree tree') {ids : List String}
    (hi : ¬ids <+: target) (ho : ¬target <+: ids) : descend? ids tree' = descend? ids tree := by
  induction h generalizing ids with
  | here level => exact absurd List.nil_prefix ho
  | @inside target before after item item' first same deeper ih =>
    cases ids with
    | nil => exact absurd List.nil_prefix hi
    | cons id rest =>
      rcases get?_rewritten after first same id with ⟨rfl, hg, hg'⟩ | ⟨_, hg⟩
      · have hrest : rest ≠ [] := by
          rintro rfl
          exact hi (List.cons_prefix_cons.mpr ⟨rfl, List.nil_prefix⟩)
        rw [descend?_cons hrest, descend?_cons hrest, hg, hg']
        exact ih (fun hp => hi (List.cons_prefix_cons.mpr ⟨rfl, hp⟩))
          fun hp => ho (List.cons_prefix_cons.mpr ⟨rfl, hp⟩)
      · by_cases hrest : rest = []
        · subst hrest
          exact hg
        · rw [descend?_cons hrest, descend?_cons hrest, hg]

theorem Rewrites.level {path : String} {level : Tree} (h : Rewrites change target tree tree')
    (hc : Path.chain? path = some target) (found : tree.level path = .ok level) :
    tree'.level path = .ok (change level) := by
  obtain ⟨read, hr, hr'⟩ := h.levelAt?
  rw [levelAt?_of_level found hc] at hr
  cases hr
  rw [level_eq, hc, Option.bind_some, hr']

theorem Rewrites.sameOutside (h : Rewrites change target tree tree') : SameOutside target tree tree' where
  details ids ho := by
    refine h.detailsAt?_outside fun more hm he => ?_
    rcases ho with rfl | ho
    · exact hm (List.self_eq_append_right.mp he)
    · exact ho (he ▸ List.prefix_append target more)
  order _ ho := h.order_outside ho
  whole _ hi ho := h.whole_outside hi ho

end Wayfinding.Tree
