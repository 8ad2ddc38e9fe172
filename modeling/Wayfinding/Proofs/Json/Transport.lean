import Wayfinding.Json.Snapshot
import Wayfinding.Proofs.Json.Nesting
import Wayfinding.Proofs.RoundTrip

namespace Wayfinding

namespace Json

theorem lookup_of_mem {members : List (String × Json)} (h : (members.map Prod.fst).Nodup) :
    ∀ member ∈ members,
      (members.map fun (key, value) => (some key, value)).lookup (some member.1) = some member.2 := by
  induction members with
  | nil => exact fun _ hm => nomatch hm
  | cons first rest ih =>
    obtain ⟨hfirst, hrest⟩ := List.nodup_cons.mp h
    refine List.forall_mem_cons.mpr ⟨by simp, ?_⟩
    intro member hm
    have hne : member.1 ≠ first.1 := by
      intro he
      exact hfirst (he ▸ List.mem_map_of_mem hm)
    have htest : (some member.1 == some first.1) = false := by simpa using hne
    rw [List.map_cons, List.lookup_cons, htest]
    exact ih hrest member hm

theorem length_filter_name (members : List (String × Json)) (name : String) :
    ((members.map fun (key, value) => (some key, value)).filter fun entry => entry.1 = some name).length =
      (members.map Prod.fst).count name := by
  induction members with
  | nil => rfl
  | cons first rest ih =>
    by_cases h : first.1 = name <;> simp_all

/-- A record that is written with all its fields is read as their values. -/
theorem fields?_ofMembers {members : List (String × Json)} {names : List String}
    (hnames : members.map Prod.fst = names) (h : names.Nodup) :
    (ofMembers members).fields? names = some (members.map fun member => some member.2) := by
  subst hnames
  have hkeys : ∀ entry ∈ members.map fun (key, value) => (some key, value), entry.1.isSome := by
    simp only [List.forall_mem_map, Option.isSome_some, implies_true]
  have honce : ∀ name ∈ members.map Prod.fst, ((members.map fun (key, value) =>
      (some key, value)).filter fun entry => entry.1 = some name).length ≤ 1 := by
    intro name _
    rw [length_filter_name]
    exact List.nodup_iff_count.mp h name
  rw [ofMembers, fields?, if_pos ⟨hkeys, honce⟩, List.map_map]
  exact congrArg some (List.map_congr_left (lookup_of_mem h))

end Json

open Json

namespace LocaleMap

theorem mapM_entry? (entries : List (String × String)) :
    (entries.map fun (locale, text) => (some locale, Json.ofString text)).mapM entry? = some entries := by
  induction entries with
  | nil => rfl
  | cons entry rest ih =>
    have hentry : entry? (some entry.1, Json.ofString entry.2) = some entry := rfl
    rw [List.map_cons, List.mapM_cons, hentry, ih]
    rfl

/-- A map is read as soon as there is a level left for its object. -/
theorem ofJson?_toJson (texts : LocaleMap) (budget : Nat) :
    ofJson? budget texts.toJson = if 0 < budget then some texts else none := by
  cases budget with
  | zero => rfl
  | succ budget =>
    have hentries := mapM_entry? texts.entries
    rw [if_pos (Nat.succ_pos budget), toJson, ofMembers, List.map_map]
    refine (congrArg (Option.map ofList) hentries).trans ?_
    rw [Option.map_some, ofList_entries]

theorem depth_toJson (texts : LocaleMap) : texts.toJson.depth = 1 := by
  have hflat (entries : List (String × String)) :
      depthMembers (entries.map fun (locale, text) => (some locale, Json.ofString text)) = 0 := by
    induction entries with
    | nil => rfl
    | cons entry rest ih => rw [List.map_cons, depthMembers, ih, Json.ofString, depth, Nat.max_self]
  rw [toJson, ofMembers, List.map_map, depth]
  exact congrArg (· + 1) (hflat texts.entries)

end LocaleMap

theorem Kind.ofJson?_toJson (held : Bool) (budget : Nat) (kind : Kind) :
    ofJson? held budget kind.toJson = some kind := by
  cases kind <;> rfl

namespace Details

/-- The details of an item are read as soon as there is a level left for its maps. -/
theorem ofFields?_toMembers (held : Bool) (budget : Nat) (details : Details) :
    ofFields? held budget (some (.ofString details.id)) (some details.kind.toJson)
        (some (.bool details.initial)) (some details.paths.toJson) (some details.labels.toJson) =
      if 0 < budget then some details else none := by
  simp only [ofFields?, bind, Option.bind_some, text?, Json.ofString, Kind.ofJson?_toJson, bool?,
    Option.elim_some, LocaleMap.ofJson?_toJson]
  split <;> rfl

theorem depthMembers_toMembers (details : Details) (tree : Json) :
    depthMembers ((details.toMembers ++ [("tree", tree)]).map fun (key, value) => (some key, value)) =
      max 1 tree.depth := by
  have hkind : details.kind.toJson.depth = 0 := rfl
  simp only [toMembers, List.cons_append, List.nil_append, List.map_cons, List.map_nil, depthMembers,
    Json.ofString, depth, hkind, LocaleMap.depth_toJson]
  omega

end Details

namespace Item

mutual

/-- How many items lie in each other, at most, from an item on. -/
def height : Item → Nat
  | .leaf _ => 1
  | .group _ children => heightAll children + 1

def heightAll : List Item → Nat
  | [] => 0
  | item :: rest => max item.height (heightAll rest)

end

mutual

/-- Each level of items takes two levels of JSON: the object of an item, and the array of its children. The
maps of an item lie as deep as that array. -/
theorem depth_toJson : (item : Item) → item.toJson.depth = 2 * item.height
  | .leaf details => by
    rw [toJson, ofMembers, depth, details.depthMembers_toMembers, depth, height]
    rfl
  | .group details children => by
    have hchildren := depthAll_toJsonAll children
    rw [toJson, ofMembers, depth, details.depthMembers_toMembers, depth, height, hchildren]
    omega

theorem depthAll_toJsonAll : (items : List Item) → depthAll (toJsonAll items) = 2 * heightAll items
  | [] => rfl
  | item :: rest => by
    rw [toJsonAll, depthAll, heightAll, depth_toJson item, depthAll_toJsonAll rest]
    omega

end

theorem fields?_members (details : Details) (tree : Json) :
    (ofMembers (details.toMembers ++ [("tree", tree)])).fields? fieldNames =
      some [some (.ofString details.id), some details.kind.toJson, some (.bool details.initial),
        some details.paths.toJson, some details.labels.toJson, some tree] :=
  fields?_ofMembers rfl (by decide)

mutual

/-- An item is read exactly if it is no deeper than the levels that are left. -/
theorem ofJson?_toJson (held : Bool) : (item : Item) → (budget : Nat) →
    ofJson? held budget item.toJson = if item.toJson.depth ≤ budget then some item else none
  | item, 0 => by
    have hdeep : ¬item.toJson.depth ≤ 0 := by
      cases item <;> exact Nat.not_succ_le_zero _
    rw [if_neg hdeep, ofJson?]
  | .leaf details, budget + 1 => by
    rw [toJson, ofJson?, fields?_members]
    simp only [Details.ofFields?_toMembers]
    rw [ofMembers, depth, details.depthMembers_toMembers, depth]
    by_cases h : 0 < budget
    · rw [if_pos h, if_pos (by omega)]
    · rw [if_neg h, if_neg (by omega)]
  | .group details children, budget + 1 => by
    rw [toJson, ofJson?, fields?_members]
    simp only [Details.ofFields?_toMembers]
    rw [ofMembers, depth, details.depthMembers_toMembers, depth]
    -- With no level left for the maps the details fail before the children are looked at.
    cases budget with
    | zero => rw [if_neg (by omega), if_neg (by omega)]
    | succ budget =>
      have hchildren := mapM_toJsonAll held children budget
      rw [if_pos (by omega)]
      simp only [Tree.ofJson?, hchildren]
      by_cases h : depthAll (toJsonAll children) ≤ budget
      · rw [if_pos h, if_pos (by omega), Option.map_some]
      · rw [if_neg h, if_neg (by omega), Option.map_none]

theorem mapM_toJsonAll (held : Bool) : (items : List Item) → (budget : Nat) →
    (toJsonAll items).mapM (ofJson? held budget) =
      if depthAll (toJsonAll items) ≤ budget then some items else none
  | [], budget => by
    rw [toJsonAll, depthAll, if_pos (Nat.zero_le budget)]
    rfl
  | item :: rest, budget => by
    rw [toJsonAll, List.mapM_cons, ofJson?_toJson held item, mapM_toJsonAll held rest, depthAll]
    by_cases hitem : item.toJson.depth ≤ budget
    · by_cases hrest : depthAll (toJsonAll rest) ≤ budget
      · rw [if_pos hitem, if_pos hrest, if_pos (Nat.max_le.mpr ⟨hitem, hrest⟩)]
        rfl
      · rw [if_pos hitem, if_neg hrest, if_neg (fun h => hrest (Nat.max_le.mp h).2)]
        rfl
    · rw [if_neg hitem, if_neg (fun h => hitem (Nat.max_le.mp h).1)]
      rfl

end

end Item

namespace Tree

def height (tree : Tree) : Nat := Item.heightAll tree

theorem depth_toJson (tree : Tree) : tree.toJson.depth = 2 * tree.height + 1 := by
  rw [toJson, depth, Item.depthAll_toJsonAll, height]

theorem ofJson?_toJson (held : Bool) (tree : Tree) (budget : Nat) :
    ofJson? held budget tree.toJson = if tree.toJson.depth ≤ budget then some tree else none := by
  rw [toJson, depth]
  cases budget with
  | zero => rw [ofJson?, if_neg (Nat.not_succ_le_zero _)]
  | succ budget =>
    rw [ofJson?, Item.mapM_toJsonAll]
    simp only [Nat.succ_le_succ_iff]

end Tree

theorem Identity.ofJson?_toJson (id : Identity) : ofJson? id.toJson = some id := by
  rw [toJson, ofJson?, Json.ofString, text?, Option.bind_some, parse?_text]

namespace Snapshot

theorem depth_toJson (state : Snapshot) : state.toJson.depth = 2 * state.tree.height + 2 := by
  have hid : state.id.toJson.depth = 0 := rfl
  simp only [toJson, ofMembers, List.map_cons, List.map_nil, depth, depthMembers, hid, Json.ofNat,
    Json.ofString, Tree.depth_toJson]
  omega

theorem fields?_toJson (state : Snapshot) :
    state.toJson.fields? ["id", "version", "name", "tree"] =
      some [some state.id.toJson, some (.ofNat state.version), some (.ofString state.name),
        some state.tree.toJson] :=
  fields?_ofMembers rfl (by decide)

/-- A state is read exactly if it is no deeper than the levels that are left. -/
theorem ofJson?_toJson {state : Snapshot} (h : state.version < wordLimit) (budget : Nat) :
    ofJson? budget state.toJson = if state.toJson.depth ≤ budget then some state else none := by
  have hdepth := state.depth_toJson
  have htree := state.tree.depth_toJson
  cases budget with
  | zero => rw [ofJson?, if_neg (by omega)]
  | succ budget =>
    have hversion : (Json.ofNat state.version).word? = some state.version := if_pos h
    simp only [ofJson?, fields?_toJson, bind, Option.bind_some, Identity.ofJson?_toJson, hversion,
      Json.ofString, text?, Tree.ofJson?_toJson]
    by_cases hb : state.tree.toJson.depth ≤ budget
    · rw [if_pos hb, if_pos (by omega)]
      rfl
    · rw [if_neg hb, if_neg (by omega)]
      rfl

end Snapshot

namespace Navigation

/-- The text of a navigation is read back exactly if it nests no deeper than 127 arrays and objects, that is,
if no more than 62 items lie in each other. -/
theorem ofJsonText_toJsonText {nav : Navigation} (h : nav.version < wordLimit) :
    (textNesting nav.toJsonText ≤ 127 →
        ofJsonText nav.toJsonText = .ok (ofSnapshot nav.toSnapshot)) ∧
      (127 < textNesting nav.toJsonText →
        ∃ reason, ofJsonText nav.toJsonText = .error (.encoding reason)) ∧
      (textNesting nav.toJsonText ≤ 127 ↔ nav.tree.height ≤ 62) := by
  have hread : Snapshot.ofJson? nestingLimit nav.toSnapshot.toJson = _ := Snapshot.ofJson?_toJson h 127
  have hnesting : textNesting nav.toJsonText = nav.toSnapshot.toJson.depth := textNesting_text _
  rw [hnesting]
  refine ⟨?_, ?_, ?_⟩
  · intro hshallow
    rw [ofJsonText, toJsonText, parse?_text, Option.bind_some, hread, if_pos hshallow]
  · intro hdeep
    rw [ofJsonText, toJsonText, parse?_text, Option.bind_some, hread, if_neg (Nat.not_le.mpr hdeep)]
    exact ⟨_, rfl⟩
  · rw [Snapshot.depth_toJson]
    omega

/-- Groups in each other, the innermost without children. -/
def tower : Nat → Tree
  | 0 => []
  | levels + 1 => [.group ⟨"\t", .label, false, .empty, LocaleMap.empty.insert "" "/"⟩ (tower levels)]

/-- The last version of all, a name that is not written as it is, and an event that waits to be saved. -/
def towerNavigation (levels : Nat) : Navigation where
  id := .ofSeed 1
  version := wordLimit - 1
  name := "\"\\\x00\u2028😀"
  tree := tower levels
  uncommitted := [.created "tower"]

theorem height_tower (levels : Nat) : (tower levels).height = levels := by
  induction levels with
  | zero => rfl
  | succ levels ih =>
    rw [Tree.height] at ih ⊢
    rw [tower, Item.heightAll, Item.height, ih]
    exact Nat.max_zero _

theorem ofJsonText_tower :
    (towerNavigation 62).version < wordLimit ∧
      ofJsonText (towerNavigation 62).toJsonText = .ok (ofSnapshot (towerNavigation 62).toSnapshot) ∧
      ∃ reason, ofJsonText (towerNavigation 63).toJsonText = .error (.encoding reason) := by
  have hversion (levels : Nat) : (towerNavigation levels).version < wordLimit := by
    change wordLimit - 1 < wordLimit
    decide
  obtain ⟨back, -, reach⟩ := ofJsonText_toJsonText (hversion 62)
  obtain ⟨-, refused, beyond⟩ := ofJsonText_toJsonText (hversion 63)
  have hreach : (towerNavigation 62).tree.height ≤ 62 := Nat.le_of_eq (height_tower 62)
  have hbeyond : ¬(towerNavigation 63).tree.height ≤ 62 := by
    rw [towerNavigation, height_tower]
    decide
  refine ⟨hversion 62, back (reach.mpr hreach), refused ?_⟩
  exact Nat.not_le.mp fun h => hbeyond (beyond.mp h)

end Navigation

end Wayfinding
