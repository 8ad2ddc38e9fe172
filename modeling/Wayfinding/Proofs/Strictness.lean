import Wayfinding.Proofs.Addressable
import Wayfinding.Proofs.Resolution

namespace Wayfinding

namespace Path

theorem toList_leading (id : String) : ("." ++ id).toList = separator :: id.toList := by
  simp [separator]

theorem splitLast_leading {id : String} (h : separator ∉ id.toList) : splitLast ("." ++ id) = ("", id) := by
  simpa using splitLast_append "" h

theorem segments?_leading (id : String) : segments? ("." ++ id) = none := by
  rw [segments?, toList_leading, pieces]
  simp

/-- Of the paths with an empty segment, only one with nothing but a separator before its last segment has a level
to cut that segment off from. -/
theorem leading_of_splitLast {path : String} {parents : List String} (hs : segments? path = none)
    (hc : chain? (splitLast path).1 = some parents) (hlast : (splitLast path).2 ≠ "") :
    separator ∉ (splitLast path).2.toList ∧ path = "." ++ (splitLast path).2 := by
  obtain ⟨hid, hjoin | hpath⟩ := join_splitLast path
  -- What could be joined again would have segments.
  · have hjoined := segments?_join hc ⟨hlast, hid⟩
    rw [hjoin] at hjoined
    cases hs.symm.trans hjoined
  · exact ⟨hid, hpath⟩

end Path

namespace Tree

/-- No item has an empty ID. Siblings may share one, and it may have separators in it. -/
def Named (tree : Tree) : Prop := ∀ level ∈ tree.levels, ∀ item ∈ level, item.id ≠ ""

instance (tree : Tree) : Decidable tree.Named :=
  inferInstanceAs (Decidable (∀ level ∈ tree.levels, ∀ item ∈ level, item.id ≠ ""))

theorem mem_levelsAll {item : Item} {items : List Item} (h : item ∈ items) {level : Tree}
    (hl : level ∈ item.levels) : level ∈ Item.levelsAll items := by
  induction items with
  | nil => cases h
  | cons first rest ih =>
    rcases List.mem_cons.mp h with rfl | h
    · exact List.mem_append_left _ hl
    · exact List.mem_append_right _ (ih h)

theorem Named.sublevel {tree : Tree} {item : Item} (hn : tree.Named) (h : item ∈ tree) :
    Named item.sublevel := by
  intro level hl
  cases item with
  | leaf details =>
    cases List.mem_singleton.mp hl
    exact List.forall_mem_nil _
  | group details children => exact hn level (List.mem_cons_of_mem _ (mem_levelsAll h hl))

theorem Named.levelAt? {ids : List String} {tree level : Tree} (hn : tree.Named)
    (h : levelAt? ids tree = some level) : level.Named := by
  induction ids generalizing tree with
  | nil =>
    cases h
    exact hn
  | cons id rest ih =>
    obtain ⟨item, hg, hl⟩ := Option.bind_eq_some_iff.mp h
    exact ih (hn.sublevel (get?_mem hg)) hl

theorem Named.descend?_ne {ids : List String} {id : String} {tree : Tree} {item : Item} (hn : tree.Named)
    (h : descend? (ids ++ [id]) tree = some item) : id ≠ "" := by
  rw [descend?_append (by simp)] at h
  obtain ⟨level, hl, hg⟩ := Option.bind_eq_some_iff.mp h
  rw [← get?_id hg]
  exact hn.levelAt? hl level List.mem_cons_self item (get?_mem hg)

theorem levelAt?_chain (tree : Tree) (path : String) :
    ((Path.chain? path).bind fun ids => levelAt? ids tree) = (tree.level path).toOption := by
  rw [level_eq]
  cases (Path.chain? path).bind fun ids => levelAt? ids tree <;> rfl

/-- A removal takes what its last segment means in the level before it. -/
theorem taken_eq (tree : Tree) (path : String) :
    (tree.removePath path).1 = (Path.chain? (Path.splitLast path).1).bind fun ids =>
      descend? (ids ++ [(Path.splitLast path).2]) tree := by
  have hdown : ∀ ids, descend? (ids ++ [(Path.splitLast path).2]) tree =
      (levelAt? ids tree).bind fun level => level.get? (Path.splitLast path).2 :=
    fun ids => descend?_append (by simp)
  simp only [hdown]
  rw [← Option.bind_assoc, levelAt?_chain, level_eq_existingLevel]
  cases he : tree.existingLevel (Path.splitLast path).1 with
  | error error => simp [removePath, he, Except.map, Except.toOption]
  | ok found => cases found <;> simp [removePath, he, Except.map, Except.toOption, get?]

theorem taken_of_item {tree : Tree} {path : String} {item : Item} (h : tree.item path = .ok item) :
    (tree.removePath path).1 = some item := by
  obtain ⟨ids, hs, hd⟩ := item_eq_ok.mp h
  obtain ⟨parents, last, rfl, hc, rfl⟩ := Path.splitLast_of_segments hs
  rw [taken_eq, hc, Option.bind_some, hd]

/-- What is taken though it is not read stands in the root level, and was asked for behind a separator. -/
theorem leading_of_taken {tree : Tree} {path : String} {item : Item} (hn : tree.Named)
    (ht : (tree.removePath path).1 = some item) (hi : tree.item path ≠ .ok item) :
    item.id ∈ tree.ids ∧ '.' ∉ item.id.toList ∧ path = "." ++ item.id := by
  rw [taken_eq] at ht
  obtain ⟨parents, hc, hd⟩ := Option.bind_eq_some_iff.mp ht
  have hs : Path.segments? path = none := by
    cases hs : Path.segments? path with
    | none => rfl
    | some ids =>
      obtain ⟨chain, last, rfl, hc', rfl⟩ := Path.splitLast_of_segments hs
      cases hc.symm.trans hc'
      exact absurd (item_eq_ok.mpr ⟨_, hs, hd⟩) hi
  obtain ⟨hlast, hpath⟩ := Path.leading_of_splitLast hs hc (hn.descend?_ne hd)
  have hsplit := Path.splitLast_leading hlast
  rw [← hpath] at hsplit
  rw [hsplit, Path.chain?_empty] at hc
  cases hc
  have hid : item.id = (Path.splitLast path).2 := get?_id hd
  rw [hid]
  exact ⟨hid ▸ List.mem_map_of_mem (get?_mem hd), hlast, hpath⟩

theorem left_of_taken_none {tree : Tree} {path : String} (h : (tree.removePath path).1 = none) :
    (tree.removePath path).2 = tree := by
  cases he : tree.existingLevel (Path.splitLast path).1 with
  | error error => simp [removePath, he]
  | ok found =>
    cases found with
    | none => simp [removePath, he]
    | some level =>
      simp only [removePath, he] at h ⊢
      have hsame : (some level).map (·.without (Path.splitLast path).2) = some level :=
        congrArg some (without_of_get?_none h)
      rw [updateExistingLevel_fixed he hsame]
      rfl

theorem item_leading (tree : Tree) (id : String) :
    tree.item ("." ++ id) = .error (.itemNotFound ("." ++ id)) := by
  rw [item, Path.segments?_leading]
  rfl

theorem removePath_leading {tree : Tree} {id : String} (h : '.' ∉ id.toList) :
    tree.removePath ("." ++ id) = tree.remove id := by
  rw [removePath, Path.splitLast_leading h]
  rfl

/-- What a path reads leaves the level that it stands in, which is written where it is. -/
theorem left_of_item {tree : Tree} {path : String} {item : Item} (h : tree.item path = .ok item) :
    ∃ above before after, tree.place? path = some (above ++ [before.length]) ∧ item.id ∉ ids before ∧
      LevelWritten above (before ++ item :: after) (before ++ after) tree (tree.removePath path).2 ∧
      (itemIn? above (tree.removePath path).2).map Item.own = (itemIn? above tree).map Item.own := by
  obtain ⟨ids, hs, hd⟩ := item_eq_ok.mp h
  obtain ⟨parents, last, rfl, hc, hlast⟩ := Path.splitLast_of_segments hs
  rw [descend?_append (by simp)] at hd
  obtain ⟨level, hl, hg⟩ := Option.bind_eq_some_iff.mp hd
  obtain ⟨before, after, rfl, hbefore, hwithout, hposition⟩ := around_of_get? hg
  have hlevel : tree.level (Path.splitLast path).1 = .ok (before ++ item :: after) := by
    simp [level_eq, hc, hl]
  have hexisting := existingLevel_of_level hlevel (by simp)
  obtain ⟨above, habove, hwritten⟩ := updateExistingLevel_at hexisting
  obtain ⟨left, hu, hlevels, hown, -⟩ := hwritten (·.without last)
  have hleft : (tree.removePath path).2 = left := by simp [removePath, hexisting, hlast, hu, Except.toOption]
  have hid : item.id = last := get?_id hg
  rw [place?, hc, Option.bind_some] at habove
  refine ⟨above, before, after, ?_, hid ▸ hbefore, ?_, hleft ▸ hown⟩
  · rw [place?, Path.chain?_of_segments hs, Option.bind_some, placeOf?_snoc, habove, Option.bind_some,
      hlevels.found]
    simp [hposition]
  · rw [hleft, ← hwithout]
    exact hlevels

/-- A tree in which an ID with a separator comes before a path of the same text, and siblings share their IDs. -/
def ambiguousTree : Tree :=
  [.new "a.b" .label, (Item.new "a" .label).withChildren [.new "b" .label, .new "b" .staticLink],
   .new "a" .label]

/-- Where no ID is empty, a removal by path goes as strictly by the segments of the path as reading an item does,
except behind a single leading separator. -/
theorem removal_strict_iff {tree : Tree} (named : tree.Named) (path : String) :
    (((∀ item, (tree.removePath path).1 = some item ↔ tree.item path = .ok item) ∧
        ∀ error, tree.item path = .error error → (tree.removePath path).2 = tree) ↔
      ¬∃ id ∈ tree.ids, '.' ∉ id.toList ∧ path = "." ++ id) ∧
    (∀ id, '.' ∉ id.toList → tree.removePath ("." ++ id) = tree.remove id ∧
      tree.item ("." ++ id) = .error (.itemNotFound ("." ++ id))) ∧
    ((tree.removePath path).1 = none → (tree.removePath path).2 = tree) ∧
    ∀ item, tree.item path = .ok item → (tree.removePath path).1 = some item ∧
      ∃ above before after, tree.place? path = some (above ++ [before.length]) ∧ item.id ∉ ids before ∧
        LevelWritten above (before ++ item :: after) (before ++ after) tree (tree.removePath path).2 ∧
        (itemIn? above (tree.removePath path).2).map Item.own = (itemIn? above tree).map Item.own := by
  refine ⟨⟨?strict, ?exact⟩, fun id hid => ⟨removePath_leading hid, item_leading tree id⟩, left_of_taken_none,
    fun item h => ⟨taken_of_item h, left_of_item h⟩⟩
  case strict =>
    rintro ⟨htaken, -⟩ ⟨id, hmem, hid, rfl⟩
    obtain ⟨item, hg⟩ := get?_isSome_of_mem_ids hmem
    have hread := (htaken item).mp (by rw [removePath_leading hid]; exact hg)
    rw [item_leading] at hread
    cases hread
  case exact =>
    intro hnot
    have hiff : ∀ item, (tree.removePath path).1 = some item ↔ tree.item path = .ok item := by
      refine fun item => ⟨fun ht => ?_, taken_of_item⟩
      exact Classical.byContradiction fun hi => hnot ⟨item.id, leading_of_taken named ht hi⟩
    refine ⟨hiff, fun error h => left_of_taken_none ?_⟩
    cases ht : (tree.removePath path).1 with
    | none => rfl
    | some item => cases h.symm.trans ((hiff item).mp ht)

theorem removal_strict_ambiguous : ambiguousTree.Named ∧
    (ambiguousTree.removePath "a.b").1 = some (.new "b" .label) ∧
    (ambiguousTree.removePath "a.b").2.paths = ["a.b", "a", "a.b", "a"] := by
  have named : ambiguousTree.Named := by decide
  exact ⟨named, ((removal_strict_iff named "a.b").2.2.2 _ rfl).1, by decide +kernel⟩

/-- A path that reads nothing removes an item. -/
theorem leading_separator_removes : Named [.new "a" .label] ∧
    item [.new "a" .label] ".a" = .error (.itemNotFound ".a") ∧
    removePath [.new "a" .label] ".a" = (some (.new "a" .label), []) :=
  ⟨by decide, rfl, by decide +kernel⟩

end Tree

end Wayfinding
