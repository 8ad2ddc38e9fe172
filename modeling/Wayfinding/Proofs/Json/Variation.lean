import Mathlib.Data.List.Forall2
import Mathlib.Data.List.Nodup
import Wayfinding.Proofs.Json.Holding

namespace Wayfinding

namespace Json

/-- An object has these members among others of different names, in any order. Members that have their default value
may be missing. -/
inductive Varies (defaults members : List (String × Json)) : Json → Prop where
  | intro {kept extra others : List (String × Json)} (kept_members : kept.Sublist members)
    (missing : ∀ member ∈ members, member ∉ kept → member ∈ defaults)
    (unknown : ∀ member ∈ extra, member.1 ∉ members.map Prod.fst) (order : others.Perm (kept ++ extra)) :
    Varies defaults members (.ofMembers others)

theorem Varies.of_perm {defaults members others : List (String × Json)} (h : others.Perm members) :
    Varies defaults members (.ofMembers others) :=
  .intro (List.Sublist.refl members) (fun _ hm hk => absurd hm hk) (fun _ hm => absurd hm List.not_mem_nil)
    (h.trans (List.Perm.of_eq (List.append_nil members).symm))

/-- A member is found, unless it is missing with its default value. -/
def Found (defaults : List (String × Json)) (member : String × Json) (field : Option Json) : Prop :=
  field = some member.2 ∨ field = none ∧ member ∈ defaults

theorem lookup_absent {members : List (Option String × Json)} {name : String}
    (h : ∀ entry ∈ members, entry.1 ≠ some name) : members.lookup (some name) = none := by
  rw [List.lookup_eq_none_iff]
  intro entry hm
  simpa using (h entry hm).symm

theorem lookup_unnamed {members : List (String × Json)} {name : String} (h : name ∉ members.map Prod.fst) :
    (members.map fun (key, value) => (some key, value)).lookup (some name) = none := by
  refine lookup_absent (List.forall_mem_map.mpr fun member hm he => h ?_)
  exact Option.some.inj he ▸ List.mem_map_of_mem hm

theorem fields?_varies {defaults members : List (String × Json)} {value : Json}
    (h : Varies defaults members value) (hn : (members.map Prod.fst).Nodup) :
    ∃ fields, value.fields? (members.map Prod.fst) = some fields ∧
      List.Forall₂ (Found defaults) members fields := by
  obtain @⟨kept, extra, others, kept_members, missing, unknown, order⟩ := h
  have hkept : (kept.map Prod.fst).Nodup := hn.sublist (kept_members.map _)
  have hextra : ∀ name ∈ members.map Prod.fst, name ∉ extra.map Prod.fst := by
    intro name hname hm
    obtain ⟨member, hmember, rfl⟩ := List.mem_map.mp hm
    exact unknown member hmember hname
  have hkeys : ∀ entry ∈ (kept ++ extra).map fun (key, value) => (some key, value), entry.1.isSome := by
    simp only [List.forall_mem_map, Option.isSome_some, implies_true]
  have honce : ∀ name ∈ members.map Prod.fst, (((kept ++ extra).map fun (key, value) =>
      (some key, value)).filter fun entry => entry.1 = some name).length ≤ 1 := by
    intro name hname
    rw [length_filter_name, List.map_append, List.count_append, List.count_eq_zero.mpr (hextra name hname)]
    exact List.nodup_iff_count.mp hkept name
  refine ⟨_, (fields?_perm (order.map _) _).trans (if_pos ⟨hkeys, honce⟩), ?_⟩
  rw [List.map_map, List.forall₂_map_right_iff, List.forall₂_same]
  intro member hm
  have hlookup := lookup_unnamed (hextra member.1 (List.mem_map_of_mem hm))
  simp only [Function.comp_apply, List.map_append, List.lookup_append, hlookup, Option.or_none]
  by_cases hk : member ∈ kept
  · exact .inl (lookup_of_mem hkept member hk)
  · refine .inr ⟨lookup_unnamed fun hname => hk ?_, missing member hm hk⟩
    -- The members differ in their names, so the one with this name is the same.
    obtain ⟨other, hother, hsame⟩ := List.mem_map.mp hname
    rwa [← List.inj_on_of_nodup_map hn (kept_members.mem hother) hm hsame]

namespace Found

variable {defaults : List (String × Json)} {member : String × Json} {field : Option Json}

/-- What has no default value is there. -/
theorem needed {name : String} {value : Json} (h : Found defaults (name, value) field)
    (hn : name ∉ defaults.map Prod.fst) : field = some value :=
  h.resolve_right fun missing => hn (List.mem_map_of_mem missing.2)

/-- What is missing is read as what its default value would be read as. -/
theorem elim {read : Json → Option α} {standard found : α} (h : Found defaults member field)
    (hread : read member.2 = some found) (hdefault : member ∈ defaults → found = standard) :
    field.elim (some standard) read = some found := by
  rcases h with rfl | ⟨rfl, missing⟩
  · exact hread
  · rw [hdefault missing]
    rfl

end Found

end Json

open Json

namespace Item

/-- The members of an item that may be missing, with the values that they have then. -/
def defaultMembers : List (String × Json) :=
  [("initial", .bool false), ("paths", LocaleMap.empty.toJson), ("labels", LocaleMap.empty.toJson), ("tree", .null)]

mutual

/-- What an item can look like: its own members vary, and so do the items below it. -/
inductive Variant : Item → Json → Prop where
  | leaf {details : Details} {value : Json}
    (own : Varies defaultMembers (details.toMembers ++ [("tree", .null)]) value) : Variant (.leaf details) value
  | group {details : Details} {children : List Item} {values : List Json} {value : Json}
    (below : VariantAll children values)
    (own : Varies defaultMembers (details.toMembers ++ [("tree", .array values)]) value) :
    Variant (.group details children) value

inductive VariantAll : List Item → List Json → Prop where
  | nil : VariantAll [] []
  | cons {item : Item} {items : List Item} {value : Json} {values : List Json} (first : Variant item value)
    (rest : VariantAll items values) : VariantAll (item :: items) (value :: values)

end

mutual

theorem variant_toJson : (item : Item) → Variant item item.toJson
  | .leaf _ => .leaf (.of_perm (.refl _))
  | .group _ children => .group (variantAll_toJsonAll children) (.of_perm (.refl _))

theorem variantAll_toJsonAll : (items : List Item) → VariantAll items (toJsonAll items)
  | [] => .nil
  | item :: rest => .cons (variant_toJson item) (variantAll_toJsonAll rest)

end

end Item

theorem LocaleMap.toJson_injective : Function.Injective LocaleMap.toJson := by
  intro texts others h
  have hread := congrArg (ofJson? 1) h
  rw [ofJson?_toJson, ofJson?_toJson, if_pos Nat.one_pos, if_pos Nat.one_pos] at hread
  exact Option.some.inj hread

namespace Details

/-- The details of an item are read from whichever of their members are there. -/
theorem ofFields?_variant (held : Bool) {budget : Nat} (h : 0 < budget) {details : Details} {tree : Json}
    {fields : List (Option Json)}
    (hf : List.Forall₂ (Found Item.defaultMembers) (details.toMembers ++ [("tree", tree)]) fields) :
    ∃ id kind initial paths labels children, fields = [id, kind, initial, paths, labels, children] ∧
      ofFields? held budget id kind initial paths labels = some details ∧
      (children = some tree ∨ children = none ∧ tree = .null) := by
  simp only [toMembers, List.cons_append, List.nil_append, List.forall₂_cons_left_iff,
    List.forall₂_nil_left_iff] at hf
  obtain ⟨id, _, hid, ⟨kind, _, hkind, ⟨initial, _, hinitial, ⟨paths, _, hpaths, ⟨labels, _, hlabels,
    ⟨children, _, hchildren, rfl, rfl⟩, rfl⟩, rfl⟩, rfl⟩, rfl⟩, rfl⟩ := hf
  obtain rfl := hid.needed (by decide)
  obtain rfl := hkind.needed (by decide)
  have hmap (texts : LocaleMap) : LocaleMap.ofJson? budget texts.toJson = some texts := by
    rw [LocaleMap.ofJson?_toJson, if_pos h]
  have hflag : initial.elim (some false) bool? = some details.initial :=
    hinitial.elim rfl fun missing => by simpa [Item.defaultMembers] using missing
  have hpaths' : paths.elim (some .empty) (LocaleMap.ofJson? budget) = some details.paths :=
    hpaths.elim (hmap _) fun missing => LocaleMap.toJson_injective (by simpa [Item.defaultMembers] using missing)
  have hlabels' : labels.elim (some .empty) (LocaleMap.ofJson? budget) = some details.labels :=
    hlabels.elim (hmap _) fun missing => LocaleMap.toJson_injective (by simpa [Item.defaultMembers] using missing)
  refine ⟨_, _, _, _, _, _, rfl, ?_, ?_⟩
  · simp only [ofFields?, bind, Option.bind_some, text?, Json.ofString, Kind.ofJson?_toJson, hflag, hpaths', hlabels']
    rfl
  · refine hchildren.imp_right fun missing => ⟨missing.1, ?_⟩
    simpa [Item.defaultMembers] using missing.2

end Details

namespace Item

/-- A varied item is read as its details and whatever its children are read as. -/
theorem ofJson?_varies (held : Bool) {budget : Nat} (h : 0 < budget) {details : Details} {tree value : Json}
    (own : Varies defaultMembers (details.toMembers ++ [("tree", tree)]) value) :
    ofJson? held (budget + 1) value =
      match tree with
      | .null => some (.leaf details)
      | tree => (Tree.ofJson? held budget tree).map (.group details) := by
  have hnames : fieldNames.Nodup := by decide
  obtain ⟨fields, hfields, hfound⟩ := fields?_varies own hnames
  obtain ⟨id, kind, initial, paths, labels, children, rfl, hdetails, hchildren⟩ :=
    Details.ofFields?_variant held h hfound
  have hread : value.fields? fieldNames = _ := hfields
  rw [ofJson?, hread]
  simp only [hdetails]
  rcases hchildren with rfl | ⟨rfl, rfl⟩
  · cases tree <;> rfl
  · rfl

mutual

/-- However an item varies, it is read as it was, if it is no deeper than the levels that are left. -/
theorem ofJson?_variant (held : Bool) {item : Item} {value : Json} : Variant item value → (budget : Nat) →
    2 * item.height ≤ budget → ofJson? held budget value = some item
  | .leaf own, budget, hb => by
    rw [height] at hb
    obtain ⟨budget, rfl⟩ := Nat.exists_eq_add_of_le' (Nat.le_of_succ_le hb)
    rw [ofJson?_varies held (by omega) own]
  | .group below own, budget, hb => by
    rw [height] at hb
    obtain ⟨budget, rfl⟩ := Nat.exists_eq_add_of_le' (show 2 ≤ budget by omega)
    rw [ofJson?_varies held (Nat.succ_pos _) own]
    simp only [Tree.ofJson?, mapM_variantAll held below budget (by omega), Option.map_some]

theorem mapM_variantAll (held : Bool) {items : List Item} {values : List Json} : VariantAll items values →
    (budget : Nat) → 2 * heightAll items ≤ budget → values.mapM (ofJson? held budget) = some items
  | .nil, _, _ => rfl
  | .cons first rest, budget, hb => by
    rw [heightAll] at hb
    rw [List.mapM_cons, ofJson?_variant held first budget (by omega), mapM_variantAll held rest budget (by omega)]
    rfl

end

end Item

namespace Snapshot

/-- What a state can look like. None of its members may be missing. -/
inductive Variant (state : Snapshot) : Json → Prop where
  | intro {values : List Json} {value : Json} (items : Item.VariantAll state.tree values)
    (own : Varies [] [("id", state.id.toJson), ("version", .ofNat state.version), ("name", .ofString state.name),
      ("tree", .array values)] value) : Variant state value

theorem variant_toJson (state : Snapshot) : state.Variant state.toJson :=
  .intro (Item.variantAll_toJsonAll state.tree) (.of_perm (.refl _))

theorem ofJson?_variant {state : Snapshot} (h : state.version < wordLimit) {value : Json}
    (hv : state.Variant value) {budget : Nat} (hb : state.toJson.depth ≤ budget) :
    ofJson? budget value = some state := by
  obtain ⟨items, own⟩ := hv
  rw [depth_toJson, Tree.height] at hb
  obtain ⟨budget, rfl⟩ := Nat.exists_eq_add_of_le' (show 2 ≤ budget by omega)
  have hnames : ["id", "version", "name", "tree"].Nodup := by decide
  obtain ⟨fields, hfields, hfound⟩ := fields?_varies own hnames
  simp only [List.forall₂_cons_left_iff, List.forall₂_nil_left_iff] at hfound
  obtain ⟨id, _, hid, ⟨version, _, hversion, ⟨name, _, hname, ⟨tree, _, htree, rfl, rfl⟩, rfl⟩, rfl⟩, rfl⟩ := hfound
  obtain rfl := hid.needed List.not_mem_nil
  obtain rfl := hversion.needed List.not_mem_nil
  obtain rfl := hname.needed List.not_mem_nil
  obtain rfl := htree.needed List.not_mem_nil
  have hread : value.fields? ["id", "version", "name", "tree"] = _ := hfields
  have hword : (Json.ofNat state.version).word? = some state.version := if_pos h
  have hitems : Tree.ofJson? false (budget + 1) (.array _) = some state.tree :=
    Item.mapM_variantAll false items budget (by omega)
  rw [ofJson?, hread]
  simp only [bind, Option.bind_some, Identity.ofJson?_toJson, hword, Json.ofString, text?, hitems]
  rfl

end Snapshot

namespace Json

theorem fields?_eq_some {members : List (Option String × Json)} {names : List String} {fields : List (Option Json)}
    (h : (object members).fields? names = some fields) :
    fields = (names.map fun name => members.lookup (some name)) ∧
      ∀ name ∈ names, (members.filter fun entry => entry.1 = some name).length ≤ 1 := by
  rw [fields?] at h
  split at h
  · rename_i hread
    exact ⟨(Option.some.inj h).symm, hread.2⟩
  · contradiction

theorem lookup_present {members : List (Option String × Json)} {name : String} {value : Json}
    (h : (some name, value) ∈ members)
    (honce : (members.filter fun entry => entry.1 = some name).length ≤ 1) :
    members.lookup (some name) = some value := by
  have hm : (some name, value) ∈ members.filter fun entry => entry.1 = some name := by simp [h]
  obtain ⟨entry, hentry⟩ := List.length_eq_one_iff.mp (Nat.le_antisymm honce (List.length_pos_of_mem hm))
  rw [hentry, List.mem_singleton] at hm
  rw [lookup_eq_head?, hentry, ← hm]
  rfl

theorem mapM_eq_none {read : Json → Option α} {values : List Json} {value : Json} (h : value ∈ values)
    (hread : read value = none) : values.mapM read = none := by
  induction values with
  | nil => exact absurd h List.not_mem_nil
  | cons first rest ih =>
    rw [List.mapM_cons]
    rcases List.mem_cons.mp h with rfl | hrest
    · rw [hread]
      rfl
    · rw [ih hrest]
      cases read first <;> rfl

end Json

theorem Tree.ofJson?_eq_none {held : Bool} {values : List Json} {value : Json} (h : value ∈ values)
    (hread : ∀ budget, Item.ofJson? held budget value = none) (budget : Nat) :
    ofJson? held budget (.array values) = none := by
  cases budget with
  | zero => rfl
  | succ budget => exact mapM_eq_none h (hread budget)

theorem Details.ofFields?_incomplete (held : Bool) (budget : Nat) {id kind : Option Json}
    (h : id = none ∨ kind = none) (initial paths labels : Option Json) :
    ofFields? held budget id kind initial paths labels = none := by
  rcases h with rfl | rfl
  · rfl
  · simp [ofFields?]

/-- An object that is read as an item has an ID and a kind, and the children that it has are read. -/
theorem Item.members_of_ofJson? {held : Bool} {budget : Nat} {members : List (Option String × Json)} {item : Item}
    (h : ofJson? held (budget + 1) (.object members) = some item) :
    (∀ name ∈ ["id", "type"], members.lookup (some name) ≠ none) ∧
      ∀ values, (some "tree", .array values) ∈ members → Tree.ofJson? held budget (.array values) ≠ none := by
  rw [ofJson?] at h
  split at h
  · rename_i id kind initial paths labels tree hfields
    obtain ⟨hlookups, honce⟩ := fields?_eq_some hfields
    simp only [fieldNames, List.map_cons, List.map_nil, List.cons.injEq, and_true] at hlookups
    obtain ⟨rfl, rfl, -, -, -, rfl⟩ := hlookups
    constructor
    · simp only [List.forall_mem_cons, List.not_mem_nil, false_implies, implies_true, and_true]
      constructor
      all_goals
        intro hnone
        rw [Details.ofFields?_incomplete held budget (by simp [hnone])] at h
        contradiction
    · intro values children hnone
      rw [lookup_present children (honce "tree" (by decide))] at h
      simp only [hnone, Option.map_none] at h
      split at h <;> contradiction
  · contradiction

/-- An object that is read as a state has all members of a state, and the items that it has are read. -/
theorem Snapshot.members_of_ofJson? {budget : Nat} {members : List (Option String × Json)} {state : Snapshot}
    (h : ofJson? (budget + 1) (.object members) = some state) :
    (∀ name ∈ ["id", "version", "name", "tree"], members.lookup (some name) ≠ none) ∧
      ∀ values, (some "tree", .array values) ∈ members → Tree.ofJson? false budget (.array values) ≠ none := by
  rw [ofJson?] at h
  obtain ⟨fields, hfields, h⟩ := Option.bind_eq_some_iff.mp h
  split at h
  · rename_i id version name tree
    obtain ⟨hlookups, honce⟩ := fields?_eq_some hfields
    simp only [List.map_cons, List.map_nil, List.cons.injEq, and_true] at hlookups
    obtain ⟨hid, hversion, hname, htree⟩ := hlookups
    constructor
    · intro needed hmem hnone
      simp only [List.mem_cons, List.not_mem_nil, or_false] at hmem
      rcases hmem with rfl | rfl | rfl | rfl
      · cases hid.trans hnone
      · cases hversion.trans hnone
      · cases hname.trans hnone
      · cases htree.trans hnone
    · intro values items hnone
      cases htree.trans (lookup_present items (honce "tree" (by decide)))
      obtain ⟨_, -, h⟩ := Option.bind_eq_some_iff.mp h
      obtain ⟨_, -, h⟩ := Option.bind_eq_some_iff.mp h
      obtain ⟨_, -, h⟩ := Option.bind_eq_some_iff.mp h
      obtain ⟨_, hitems, -⟩ := Option.bind_eq_some_iff.mp h
      exact Option.some_ne_none _ (hitems.symm.trans hnone)
  · contradiction

/-- An item lacks its ID or its kind, or an item below it does, however it looks else. -/
inductive Item.Incomplete : Json → Prop where
  | itself {members : List (Option String × Json)} {name : String} (needed : name ∈ ["id", "type"])
    (absent : ∀ entry ∈ members, entry.1 ≠ some name) : Incomplete (.object members)
  | within {members : List (Option String × Json)} {values : List Json} {value : Json}
    (children : (some "tree", .array values) ∈ members) (child : value ∈ values) (lacks : Incomplete value) :
    Incomplete (.object members)

theorem Item.ofJson?_incomplete (held : Bool) {value : Json} (h : Incomplete value) (budget : Nat) :
    ofJson? held budget value = none := by
  refine Option.eq_none_iff_forall_ne_some.mpr fun item hread => ?_
  induction h generalizing budget item with
  | itself needed absent =>
    cases budget with
    | zero => contradiction
    | succ budget => exact (members_of_ofJson? hread).1 _ needed (lookup_absent absent)
  | within children child _ ih =>
    cases budget with
    | zero => contradiction
    | succ budget =>
      refine (members_of_ofJson? hread).2 _ children (Tree.ofJson?_eq_none child (fun budget => ?_) budget)
      exact Option.eq_none_iff_forall_ne_some.mpr (ih budget)

/-- A state lacks one of its members, or an item of it lacks its ID or its kind. -/
inductive Snapshot.Incomplete : Json → Prop where
  | itself {members : List (Option String × Json)} {name : String}
    (needed : name ∈ ["id", "version", "name", "tree"]) (absent : ∀ entry ∈ members, entry.1 ≠ some name) :
    Incomplete (.object members)
  | within {members : List (Option String × Json)} {values : List Json} {value : Json}
    (items : (some "tree", .array values) ∈ members) (item : value ∈ values) (lacks : Item.Incomplete value) :
    Incomplete (.object members)

theorem Snapshot.ofJson?_incomplete {value : Json} (h : Incomplete value) (budget : Nat) :
    ofJson? budget value = none := by
  refine Option.eq_none_iff_forall_ne_some.mpr fun state hread => ?_
  cases budget with
  | zero => contradiction
  | succ budget =>
    cases h with
    | itself needed absent => exact (members_of_ofJson? hread).1 _ needed (lookup_absent absent)
    | within items item lacks =>
      exact (members_of_ofJson? hread).2 _ items
        (Tree.ofJson?_eq_none item (Item.ofJson?_incomplete false lacks) budget)

namespace Navigation

/-- However the members of a navigation and of its items vary, its text is read as the same navigation, and none is
read without a member that has no default value. -/
theorem ofJsonText_variant {nav : Navigation} (h : nav.version < wordLimit)
    (shallow : textNesting nav.toJsonText ≤ 127) :
    (nav.toSnapshot.Variant nav.toSnapshot.toJson ∧ Spells nav.toJsonText nav.toSnapshot.toJson) ∧
      (∀ value text, nav.toSnapshot.Variant value → Spells text value →
        ofJsonText text = .ok (ofSnapshot nav.toSnapshot)) ∧
      ∀ value text, Snapshot.Incomplete value → Spells text value →
        ∃ reason, ofJsonText text = .error (.encoding reason) := by
  refine ⟨⟨nav.toSnapshot.variant_toJson, spells_text _⟩, ?_, ?_⟩
  · intro value text hvariant hspelled
    have hdepth : nav.toSnapshot.toJson.depth ≤ nestingLimit := textNesting_text _ ▸ shallow
    rw [ofJsonText, parse?_of_spells hspelled, Option.bind_some, Snapshot.ofJson?_variant h hvariant hdepth]
  · intro value text hlacks hspelled
    rw [ofJsonText, parse?_of_spells hspelled, Option.bind_some, Snapshot.ofJson?_incomplete hlacks]
    exact ⟨_, rfl⟩

/-- A group with an item that has its defaults. -/
def plain : Navigation where
  id := .ofSeed 1
  version := 1
  name := "main"
  tree := [.group ⟨"a", .label, true, .empty, LocaleMap.empty.insert "en" "A"⟩
    [.leaf ⟨"b", .staticLink, false, .empty, .empty⟩]]
  uncommitted := []

/-- A member that nests deeper than the reader goes. -/
def unknownMember : String × Json := ("later", (List.range 200).foldl (fun value _ => .array [value]) .null)

/-- The members of the inner item that can not be missing. -/
def neededMembers : List (String × Json) := [("id", .ofString "b"), ("type", .ofString "static_link")]

/-- The navigation with all members from the end, in its item and around it. -/
def reversed (inner : List (String × Json)) : Json :=
  .ofMembers [("id", (Identity.ofSeed 1).toJson), ("version", .ofNat 1), ("name", .ofString "main"),
    ("tree", .array [.ofMembers [("id", .ofString "a"), ("type", .ofString "label"), ("initial", .bool true),
      ("paths", .ofMembers []), ("labels", .ofMembers [("en", .ofString "A")]),
      ("tree", .array [.ofMembers inner.reverse])].reverse])].reverse

theorem ofJsonText_reversed :
    let full := reversed (neededMembers ++ [unknownMember])
    let short := reversed neededMembers.tail
    plain.version < wordLimit ∧ textNesting plain.toJsonText ≤ 127 ∧ plain.toSnapshot.Variant full ∧
      ofJsonText full.text = .ok (ofSnapshot plain.toSnapshot) ∧
      Snapshot.Incomplete short ∧ ∃ reason, ofJsonText short.text = .error (.encoding reason) := by
  intro full short
  have hversion : plain.version < wordLimit := by decide
  have hshallow : textNesting plain.toJsonText ≤ 127 := by
    rw [toJsonText, textNesting_text, Snapshot.depth_toJson]
    decide
  have hinner : Item.Variant (.leaf ⟨"b", .staticLink, false, .empty, .empty⟩)
      (.ofMembers (neededMembers ++ [unknownMember]).reverse) := by
    have hmembers : neededMembers.Sublist (neededMembers ++ Item.defaultMembers) := List.sublist_append_left _ _
    refine .leaf (.intro hmembers ?_ ?_ (List.reverse_perm _))
    · intro member hm hk
      have hparts : member ∈ neededMembers ++ Item.defaultMembers := hm
      exact (List.mem_append.mp hparts).resolve_left hk
    · intro member hm
      rw [List.mem_singleton.mp hm]
      decide
  have hfull : plain.toSnapshot.Variant full :=
    .intro (.cons (.group (.cons hinner .nil) (.of_perm (List.reverse_perm _))) .nil)
      (.of_perm (List.reverse_perm _))
  have hshort : Snapshot.Incomplete short := by
    have hlacks : Item.Incomplete (.ofMembers neededMembers.tail.reverse) :=
      .itself List.mem_cons_self fun entry hm => by
        rw [List.mem_singleton.mp hm]
        decide
    exact .within List.mem_cons_self List.mem_cons_self (.within List.mem_cons_self List.mem_cons_self hlacks)
  obtain ⟨-, read, refused⟩ := ofJsonText_variant hversion hshallow
  exact ⟨hversion, hshallow, hfull, read _ _ hfull (spells_text _), hshort, refused _ _ hshort (spells_text _)⟩

end Navigation

end Wayfinding
