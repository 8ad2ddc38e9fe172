import Wayfinding.Proofs.WellFormed

namespace Wayfinding.Tree

/-- Where there is no level before a chain's last ID, nothing stands under the chain. -/
theorem detailsAt?_of_no_level {tree : Tree} {parent last : String} {parents rest : List String}
    (hc : Path.chain? parent = some parents)
    (h : ∀ level, tree.existingLevel parent ≠ .ok (some level)) :
    detailsAt? (parents ++ last :: rest) tree = none := by
  rw [detailsAt?_append (by simp)]
  cases hl : levelAt? parents tree with
  | none => rfl
  | some level =>
    have hlevel : tree.level parent = .ok level := by simp [level_eq, hc, hl]
    by_cases hne : level = []
    · subst hne
      exact detailsAt?_of_get?_none rfl rest
    · exact absurd (existingLevel_of_level hlevel hne) (h level)

theorem detailsAt?_removePath {tree : Tree} (hw : WellFormed tree) {path : String}
    {target : List String} (hs : Path.segments? path = some target) (ids : List String) :
    detailsAt? ids (tree.removePath path).2 =
      if target <+: ids then none else detailsAt? ids tree := by
  obtain ⟨parents, last, rfl, hc, hlast⟩ := Path.splitLast_of_segments hs
  have hbelow : ∀ more, parents ++ [last] <+: parents ++ more ↔ ∃ rest, more = last :: rest := by
    intro more
    rw [List.prefix_append_right_inj]
    constructor
    · rintro ⟨rest, rfl⟩
      exact ⟨rest, rfl⟩
    · rintro ⟨rest, rfl⟩
      exact ⟨rest, rfl⟩
  by_cases he : ∃ level, tree.existingLevel (Path.splitLast path).1 = .ok (some level)
  · obtain ⟨level, he⟩ := he
    obtain ⟨chain, hc', hl, hr⟩ := removePath_of_level he
    rw [hc] at hc'
    cases hc'
    rw [hlast] at hr
    by_cases hin : ∃ more, more ≠ [] ∧ ids = parents ++ more
    · obtain ⟨more, hm, rfl⟩ := hin
      cases more with
      | nil => exact absurd rfl hm
      | cons other rest =>
        have hd := (hw.levelAt? hl).distinct
        rw [hr.detailsAt?_inside hl hm, detailsAt?_without hd, detailsAt?_append hm, hl]
        simp [hbelow]
    · have ho : ∀ more, more ≠ [] → ids ≠ parents ++ more := fun more hm he => hin ⟨more, hm, he⟩
      have hn : ¬parents ++ [last] <+: ids := by
        rintro ⟨rest, rfl⟩
        exact ho (last :: rest) (by simp) (by simp)
      rw [hr.detailsAt?_outside ho, if_neg hn]
  · have hno := not_exists.mp he
    rw [removePath_of_no_level hno]
    split
    · rename_i hp
      obtain ⟨rest, rfl⟩ := hp
      rw [List.append_assoc]
      exact detailsAt?_of_no_level hc hno
    · rfl

end Wayfinding.Tree
