import Wayfinding.Proofs.Sorting

namespace Wayfinding.Tree

/-- An item taken to the front overtakes none of its ID, because it is the first of them. -/
theorem filter_cons_without {level : Tree} {id : String} {item : Item} (h : level.get? id = some item)
    (shared : String) :
    (item :: level.without id).filter (fun other => other.id = shared) =
      level.filter fun other => other.id = shared := by
  induction level with
  | nil => cases h
  | cons first rest ih =>
    by_cases hid : first.id = id
    · subst hid
      rw [get?_cons_self] at h
      cases h
      rw [without_cons_self]
    · rw [get?_cons_ne rest hid] at h
      have hitem := get?_id h
      have htail := ih h
      rw [without_cons_ne rest hid]
      by_cases hs : first.id = shared
      · have hother : item.id ≠ shared := fun he => hid (hs.trans (he.symm.trans hitem))
        simpa [hs, hother] using htail
      · simpa [List.filter_cons, hs] using htail

theorem filter_sort (order : List String) (level : Tree) (shared : String) :
    (sort order level).filter (fun item => item.id = shared) =
      level.filter fun item => item.id = shared := by
  induction order generalizing level with
  | nil => rfl
  | cons id rest ih =>
    rw [sort_cons]
    cases hg : level.get? id with
    | none => rw [without_of_get?_none hg, Option.toList_none, List.nil_append, ih]
    | some item =>
      rw [← filter_cons_without hg shared, Option.toList_some, List.singleton_append, List.filter_cons,
        List.filter_cons, ih]

/-- Of two requests in one the first decides wherever it says something. -/
theorem arranged_append (level : Tree) (later earlier : List String) :
    level.arranged (later ++ earlier) =
      later.eraseDups.filterMap level.get? ++ (earlier.eraseDups.filter (· ∉ later)).filterMap level.get? ++
        level.filter fun item => item.id ∉ later ∧ item.id ∉ earlier := by
  have hnamed : (earlier.removeAll later).eraseDups = earlier.eraseDups.filter (· ∉ later) := by
    rw [List.removeAll, eraseDups_filter]
    simp
  have hothers : (level.filter fun item => item.id ∉ later ++ earlier) =
      level.filter fun item => item.id ∉ later ∧ item.id ∉ earlier := by
    simp only [List.mem_append, not_or]
  rw [arranged, List.eraseDups_append, List.filterMap_append, hnamed, hothers]

/-- Arranging an arranged level looks up the same items, and leaves the earlier order to what it does not name. -/
theorem arranged_arranged {level : Tree} (hn : level.ids.Nodup) (earlier later : List String) :
    (level.arranged earlier).arranged later = level.arranged (later ++ earlier) := by
  have hget : (level.arranged earlier).get? = level.get? :=
    funext fun id => get?_of_perm (arranged_perm hn earlier).symm hn id
  have hnamed : (earlier.eraseDups.filterMap level.get?).filter (fun item => item.id ∉ later) =
      (earlier.eraseDups.filter (· ∉ later)).filterMap level.get? := by
    rw [List.filter_filterMap, List.filterMap_filter]
    refine List.filterMap_congr fun id _ => ?_
    cases hg : level.get? id with
    | none => simp
    | some item => simp [Option.filter, get?_id hg]
  have hothers : ((level.filter fun item => item.id ∉ earlier).filter fun item => item.id ∉ later) =
      level.filter fun item => item.id ∉ later ∧ item.id ∉ earlier := by
    rw [List.filter_filter]
    simp [Bool.decide_and]
  have hrest : ((level.arranged earlier).filter fun item => item.id ∉ later) =
      (earlier.eraseDups.filter (· ∉ later)).filterMap level.get? ++
        level.filter fun item => item.id ∉ later ∧ item.id ∉ earlier := by
    rw [arranged, List.filter_append, hnamed, hothers]
  rw [arranged_append, List.append_assoc, ← hrest, arranged, hget]

theorem sort_sort {level : Tree} (hn : level.ids.Nodup) (earlier later : List String) :
    sort later (sort earlier level) = sort (later ++ earlier) level := by
  have hsorted : (sort earlier level).ids.Nodup := nodup_of_perm (sort_perm earlier level).symm hn
  rw [sort_eq_arranged hsorted, sort_eq_arranged hn, sort_eq_arranged hn, arranged_arranged hn]

-- A second mention takes the next item of its ID, but a second sorting takes the first one again.
example :
    let level : Tree := [.new "foo" .label, .new "bar" .label, .new "foo" .staticLink]
    sort ["foo"] (sort ["foo"] level) ≠ sort ["foo", "foo"] level := by decide

theorem sort_idem {level : Tree} (hn : level.ids.Nodup) (order : List String) :
    sort order (sort order level) = sort order level := by
  have hagain : order.eraseDups.filter (· ∉ order) = [] := by
    refine List.filter_eq_nil_iff.mpr fun id hm => ?_
    simpa using List.mem_eraseDups.mp hm
  rw [sort_sort hn, sort_eq_arranged hn, sort_eq_arranged hn, arranged_append, hagain]
  simp [arranged]

/-- A sorting only moves the items of a level. One by one request and then by another is the one by both, the later
in front, where siblings differ in their IDs. -/
theorem sorting_algebra (level : Tree) (order earlier later : List String) :
    (sort order level).Perm level ∧
    (∀ shared, (sort order level).filter (fun item => item.id = shared) =
      level.filter fun item => item.id = shared) ∧
    (level.ids.Nodup →
      sort (level.sortingFor order) level = sort order level ∧
      sort later (sort earlier level) = sort (later ++ earlier) level ∧
      sort later (sort earlier level) =
        later.eraseDups.filterMap level.get? ++ (earlier.eraseDups.filter (· ∉ later)).filterMap level.get? ++
          level.filter (fun item => item.id ∉ later ∧ item.id ∉ earlier) ∧
      sort order (sort order level) = sort order level) := by
  refine ⟨sort_perm order level, filter_sort order level, fun hn => ⟨?_, sort_sort hn earlier later, ?_,
    sort_idem hn order⟩⟩
  · rw [sort_sortingFor hn, sort_eq_arranged hn]
  · rw [sort_sort hn, sort_eq_arranged hn, arranged_append]

theorem sorting_algebra_overlap :
    let earlier := ["qux", "bar", "qux"]
    let later := ["baz", "abc", "qux"]
    (ids Sample.flatItems).Nodup ∧
      sort later (sort earlier Sample.flatItems) = sort (later ++ earlier) Sample.flatItems ∧
      ids (sort later (sort earlier Sample.flatItems)) = ["baz", "qux", "bar", "foo"] := by
  intro earlier later
  have hn : (ids Sample.flatItems).Nodup := by decide
  exact ⟨hn, ((sorting_algebra Sample.flatItems later earlier later).2.2 hn).2.1, by decide⟩

end Wayfinding.Tree
