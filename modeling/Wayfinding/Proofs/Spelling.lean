import Wayfinding.Proofs.Address

namespace Wayfinding.Path

/-- At least one ID, each of which a path can address, and the path that they make when they are joined in order. -/
structure Spells (ids : List String) (path : String) : Prop where
  nonempty : ids ≠ []
  valid : ∀ id ∈ ids, ValidId id
  joined : ids.foldl join "" = path

variable {path : String} {ids other : List String}

theorem spells_of_segments (h : segments? path = some ids) : Spells ids path :=
  ⟨ne_nil_of_segments h, valid_of_segments h, ofChain_of_segments h⟩

theorem Spells.segments (h : Spells ids path) : segments? path = some ids := by
  have hback := segments?_ofChain h.nonempty h.valid
  rwa [ofChain, h.joined] at hback

/-- Whatever spells a path is what splitting it gives back, and that is one list. -/
theorem Spells.unique (h : Spells ids path) (h' : Spells other path) : other = ids :=
  Option.some.inj (h'.segments.symm.trans h.segments)

theorem segments?_eq_none : segments? path = none ↔ ¬∃ ids, Spells ids path := by
  constructor
  · rintro hnone ⟨ids, h⟩
    cases hnone.symm.trans h.segments
  · intro hno
    cases hs : segments? path with
    | none => rfl
    | some ids => exact absurd ⟨ids, spells_of_segments hs⟩ hno

/-- The segments of a path are the only IDs that spell it, and the cut at the last separator undoes a join. -/
theorem splitting_inverts_joining :
    (∀ path ids, segments? path = some ids ↔ Spells ids path ∧ ∀ other, Spells other path → other = ids) ∧
    (∀ path, segments? path = none ↔ ¬∃ ids, Spells ids path) ∧
    (∀ parent id, '.' ∉ id.toList → splitLast (join parent id) = (parent, id)) ∧
    ∀ path ids, segments? path = some ids → ∃ parents last, ids = parents ++ [last] ∧
      (splitLast path).2 = last ∧
      (parents = [] → (splitLast path).1 = "") ∧
      (parents ≠ [] → segments? (splitLast path).1 = some parents) := by
  refine ⟨fun path ids => ⟨fun h => ?split, fun h => h.1.segments⟩, fun path => segments?_eq_none,
    fun parent id hid => splitLast_join parent hid, fun path ids h => ?cut⟩
  case split =>
    have hspells := spells_of_segments h
    exact ⟨hspells, fun other => hspells.unique⟩
  case cut =>
    obtain ⟨parents, last, hids, hparent, hlast⟩ := splitLast_of_segments h
    have hjoined : ofChain parents = (splitLast path).1 := ofChain_of_chain hparent
    refine ⟨parents, last, hids, hlast, ?_, ?_⟩
    · rintro rfl
      exact hjoined.symm
    · intro hne
      have hvalid : ∀ id ∈ parents, ValidId id := valid_of_chain hparent
      rw [← hjoined]
      exact segments?_ofChain hne hvalid

example : splitLast (join ".a.." "b") = (".a..", "b") := by decide +kernel

end Wayfinding.Path
