import Wayfinding.Proofs.Json.Transport

namespace Wayfinding

namespace Json

theorem depth_le_depthAll {values : List Json} {value : Json} (h : value ∈ values) :
    value.depth ≤ depthAll values := by
  induction values with
  | nil => cases h
  | cons first rest ih =>
    rw [depthAll]
    rcases List.mem_cons.mp h with rfl | h
    · exact Nat.le_max_left _ _
    · exact Nat.le_trans (ih h) (Nat.le_max_right _ _)

theorem depth_le_depthMembers {members : List (Option String × Json)} {key : Option String} {value : Json}
    (h : members.lookup key = some value) : value.depth ≤ depthMembers members := by
  induction members with
  | nil => cases h
  | cons first rest ih =>
    obtain ⟨name, content⟩ := first
    rw [depthMembers]
    rw [List.lookup_cons] at h
    split at h
    · cases h
      exact Nat.le_max_left _ _
    · exact Nat.le_trans (ih h) (Nat.le_max_right _ _)

/-- The values of fields lie one level deeper than their record. -/
theorem depth_of_fields? {record : Json} {names : List String} {fields : List (Option Json)}
    (h : record.fields? names = some fields) :
    0 < record.depth ∧ ∀ value, some value ∈ fields → value.depth < record.depth := by
  unfold fields? at h
  split at h
  · split at h
    · cases h
      rw [depth]
      refine ⟨Nat.succ_pos _, fun value hvalue => ?_⟩
      obtain ⟨name, -, hname⟩ := List.mem_map.mp hvalue
      exact Nat.lt_succ_of_le (depth_le_depthMembers hname)
    · cases h
  · split at h
    · cases h
      rw [depth]
      refine ⟨Nat.succ_pos _, fun value hvalue => ?_⟩
      exact Nat.lt_succ_of_le (depth_le_depthAll (by simpa using hvalue))
    · cases h
  · cases h

end Json

open Json

/-- What is read as items is no higher than each of what is read as one of them. -/
theorem Item.heightAll_of_mapM {read : Json → Option Item} {bound : Nat} {values : List Json}
    (hread : ∀ value ∈ values, ∀ item, read value = some item → 2 * item.height ≤ bound)
    {items : List Item} (h : values.mapM read = some items) : 2 * heightAll items ≤ bound := by
  induction values generalizing items with
  | nil =>
    cases h
    exact Nat.zero_le _
  | cons value rest ih =>
    obtain ⟨hvalue, hrest⟩ := List.forall_mem_cons.mp hread
    rw [List.mapM_cons] at h
    cases hitem : read value with
    | none => simp [hitem] at h
    | some item =>
      cases hitems : rest.mapM read with
      | none => simp [hitem, hitems] at h
      | some items =>
        simp only [hitem, hitems, bind, Option.bind_some, pure, Option.some.injEq] at h
        subst h
        have hfirst := hvalue item hitem
        have hothers := ih hrest hitems
        rw [heightAll]
        omega

section Heights

variable {held : Bool} {budget : Nat}

/-- An item takes one level for its object, and its children lie at least one level further down. -/
theorem Item.height_of_ofJson? (hchildren : ∀ value tree, Tree.ofJson? held budget value = some tree →
      2 * Tree.height tree ≤ min budget value.depth) {value : Json} {item : Item}
    (h : ofJson? held (budget + 1) value = some item) :
    2 * item.height ≤ min (budget + 1) value.depth + 1 := by
  rw [ofJson?] at h
  split at h
  · rename_i fields id kind initial paths labels tree hfields
    obtain ⟨hdepth, hdeeper⟩ := depth_of_fields? hfields
    split at h
    · cases h
    · split at h
      · cases h
        rw [height]
        omega
      · cases h
        rw [height]
        omega
      · rename_i tree _
        obtain ⟨children, hread, rfl⟩ := Option.map_eq_some_iff.mp h
        have hbound := hchildren tree children hread
        have hbelow := hdeeper tree (by simp)
        rw [height]
        rw [Tree.height] at hbound
        omega
  · cases h

/-- A level takes one level for its array, and its items lie in it. -/
theorem Tree.height_of_ofJson? (hitems : ∀ value item, Item.ofJson? held budget value = some item →
      2 * item.height ≤ min budget value.depth + 1) {value : Json} {tree : Tree}
    (h : ofJson? held (budget + 1) value = some tree) :
    2 * tree.height ≤ min (budget + 1) value.depth := by
  cases value with
  | array values =>
    rw [ofJson?] at h
    rw [depth, Nat.succ_min_succ]
    refine Item.heightAll_of_mapM (fun value hvalue item hitem => ?_) h
    have hbound := hitems value item hitem
    have hbelow := depth_le_depthAll hvalue
    omega
  | _ => cases h

/-- What was read nests no deeper than the levels that were left, and no deeper than what it was read from. -/
theorem heights_of_ofJson? (held : Bool) (budget : Nat) :
    (∀ value item, Item.ofJson? held budget value = some item →
      2 * item.height ≤ min budget value.depth + 1) ∧
    ∀ value tree, Tree.ofJson? held budget value = some tree →
      2 * Tree.height tree ≤ min budget value.depth := by
  induction budget with
  | zero =>
    constructor
    · intro value item h
      simp [Item.ofJson?] at h
    · intro value tree h
      simp [Tree.ofJson?] at h
  | succ budget ih =>
    obtain ⟨hitem, htree⟩ := ih
    exact ⟨fun _ _ h => Item.height_of_ofJson? htree h, fun _ _ h => Tree.height_of_ofJson? hitem h⟩

end Heights

theorem Json.word?_lt {value : Json} {n : Nat} (h : value.word? = some n) : n < wordLimit := by
  unfold word? at h
  split at h
  · split at h
    · cases h
      assumption
    · cases h
  · cases h

/-- The version of a state that was read fits 64 bits, and its items lie below its own level. -/
theorem Snapshot.bounds_of_ofJson? {budget : Nat} {value : Json} {state : Snapshot}
    (h : ofJson? (budget + 1) value = some state) :
    state.version < wordLimit ∧ 2 * state.tree.height ≤ min budget (value.depth - 1) := by
  rw [ofJson?] at h
  obtain ⟨fields, hfields, h⟩ := Option.bind_eq_some_iff.mp h
  split at h
  · rename_i id version name tree
    obtain ⟨-, hdeeper⟩ := depth_of_fields? hfields
    obtain ⟨_, -, h⟩ := Option.bind_eq_some_iff.mp h
    obtain ⟨_, hversion, h⟩ := Option.bind_eq_some_iff.mp h
    obtain ⟨_, -, h⟩ := Option.bind_eq_some_iff.mp h
    obtain ⟨_, htree, h⟩ := Option.bind_eq_some_iff.mp h
    cases h
    have hbound := (heights_of_ofJson? false budget).2 tree _ htree
    have hbelow := hdeeper tree (by simp)
    exact ⟨word?_lt hversion, Nat.le_trans hbound (by omega)⟩
  · cases h

namespace Navigation

/-- What becomes of a navigation that is written and read again. -/
theorem reread {nav : Navigation} (h : nav.version < wordLimit) :
    ofJsonText nav.toJsonText = if nav.tree.height ≤ 62 then .ok (ofSnapshot nav.toSnapshot)
      else .error (.encoding "not the text of a navigation") := by
  have hread := Snapshot.ofJson?_toJson h nestingLimit
  have hdepth := nav.toSnapshot.depth_toJson
  rw [ofJsonText, toJsonText, parse?_text, Option.bind_some, hread, hdepth, nestingLimit]
  by_cases hlow : nav.tree.height ≤ 62
  · rw [if_pos hlow, if_pos (by omega)]
  · rw [if_neg hlow, if_neg (by omega)]

/-- What was read from a text is a state and nothing to save, within the bounds of the reader. -/
theorem bounds_of_ofJsonText {text : String} {nav : Navigation} (h : ofJsonText text = .ok nav) :
    ∃ value, Json.parse? text = some value ∧ nav = ofSnapshot nav.toSnapshot ∧ nav.version < wordLimit ∧
      2 * nav.tree.height ≤ min 126 (value.depth - 1) := by
  unfold ofJsonText at h
  split at h
  · rename_i state hstate
    cases h
    obtain ⟨value, hvalue, hstate⟩ := Option.bind_eq_some_iff.mp hstate
    exact ⟨value, hvalue, rfl, Snapshot.bounds_of_ofJson? hstate⟩
  · cases h

/-- Every text that was read, however it was spelled, is written so that it is read again, unless 63 items lie
in each other. -/
theorem resaved_readable_iff {text : String} {nav : Navigation} (h : ofJsonText text = .ok nav) :
    (ofJsonText nav.toJsonText = .ok nav ↔ nav.tree.height ≠ 63) ∧
    (nav.tree.height = 63 ↔ ∃ reason, ofJsonText nav.toJsonText = .error (.encoding reason)) ∧
    ∀ value, Json.parse? text = some value → value.depth ≤ 126 → nav.tree.height ≠ 63 := by
  obtain ⟨value, hvalue, hstate, hversion, hheight⟩ := bounds_of_ofJsonText h
  have hagain := reread hversion
  rw [← hstate] at hagain
  refine ⟨?_, ?_, ?_⟩
  · rw [hagain]
    split
    · exact iff_of_true rfl (by omega)
    · exact iff_of_false (fun he => nomatch he) (by omega)
  · rw [hagain]
    split
    · exact iff_of_false (by omega) (fun ⟨_, he⟩ => nomatch he)
    · exact iff_of_true (by omega) ⟨_, rfl⟩
  · intro read hread hdepth
    rw [hvalue] at hread
    obtain rfl := Option.some.inj hread
    omega

/-- A navigation in another spelling: an array, an escape that is not needed, a field that is not known and one
that is left out. -/
theorem resaved_readable_spelled :
    let text := "[\"00000000-0000-4000-8000-000000000001\",1,\"\\u006dain\"," ++
      "[\x7b\"id\":\"foo\",\"type\":\"label\",\"no\":0\x7d]]"
    ∃ nav, ofJsonText text = .ok nav ∧ ofJsonText nav.toJsonText = .ok nav := by
  intro text
  have hstate : (Json.parse? text).bind (Snapshot.ofJson? nestingLimit) =
      some ⟨.ofSeed 1, 1, "main", [.new "foo" .label]⟩ := by
    decide +kernel
  have hread : ofJsonText text = .ok (ofSnapshot ⟨.ofSeed 1, 1, "main", [.new "foo" .label]⟩) := by
    rw [ofJsonText, hstate]
  exact ⟨_, hread, (resaved_readable_iff hread).1.mpr (by decide)⟩

/-- Items in each other, each said with nothing but what it has to say. -/
def sparseItem : Nat → Json
  | 0 => .ofMembers [("id", .ofString "a"), ("type", .ofString "label")]
  | levels + 1 =>
    .ofMembers [("id", .ofString "a"), ("type", .ofString "label"), ("tree", .array [sparseItem levels])]

/-- A navigation over 63 items in each other. -/
def sparse : Json :=
  .ofMembers [("id", (Identity.ofSeed 1).toJson), ("version", .ofNat 1), ("name", .ofString "main"),
    ("tree", .array [sparseItem 62])]

/-- A text that is read and can not be saved again: the maps of the innermost item, which are not in it, would
be one level too deep. -/
theorem sparse_text_lost :
    ∃ nav reason, ofJsonText sparse.text = .ok nav ∧
      ofJsonText nav.toJsonText = .error (.encoding reason) := by
  have hread : ((Snapshot.ofJson? nestingLimit sparse).map fun state => (state.version, state.tree.height)) =
      some (1, 63) := by
    decide +kernel
  obtain ⟨state, hstate, hbounds⟩ := Option.map_eq_some_iff.mp hread
  obtain ⟨hversion, hheight⟩ := Prod.mk.inj hbounds
  have hfirst : ofJsonText sparse.text = .ok (ofSnapshot state) := by
    rw [ofJsonText, parse?_text, Option.bind_some, hstate]
  have hsmall : (ofSnapshot state).version < wordLimit := by
    rw [ofSnapshot, hversion]
    decide
  have hlow : ¬(ofSnapshot state).tree.height ≤ 62 := by
    rw [ofSnapshot, hheight]
    decide
  have hagain := reread hsmall
  rw [if_neg hlow] at hagain
  exact ⟨_, _, hfirst, hagain⟩

end Navigation

end Wayfinding
