import Wayfinding.Proofs.Rewriting

namespace Wayfinding

namespace Item

/-- What an item is apart from its children: its details, and whether it is a group. -/
def own (item : Item) : Details × Bool := (item.details, item.children?.isSome)

/-- A group with a change made to its children. A leaf has none. -/
def mapChildren (change : List Item → List Item) : Item → Item
  | leaf details => leaf details
  | group details children => group details (change children)

/-- The item at a place below this one. The empty place is the item itself. -/
def at? : List Nat → Item → Option Item
  | [], item => some item
  | position :: rest, item => item.sublevel[position]?.bind (at? rest)

/-- The item with a change made at a place below it. -/
def alterAt (change : Item → Item) : List Nat → Item → Item
  | [], item => change item
  | position :: rest, item => item.mapChildren (·.modify position (alterAt change rest))

end Item

namespace Tree

/-- The item at a place. The empty place is that of the root level, which is no item. -/
def itemIn? : List Nat → Tree → Option Item
  | [], _ => none
  | position :: rest, level => level[position]?.bind (Item.at? rest)

/-- The level at a place: the root level, or the one below the item there. -/
def levelIn? : List Nat → Tree → Option Tree
  | [], level => some level
  | position :: rest, level => (itemIn? (position :: rest) level).map Item.sublevel

/-- The tree with a change made to the item at a place. -/
def alterIn (change : Item → Item) : List Nat → Tree → Tree
  | [], level => level
  | position :: rest, level => level.modify position (Item.alterAt change rest)

/-- The place that a chain of IDs leads to: of siblings with one ID that of the first. The empty chain leads to
the root level. -/
def placeOf? : List String → Tree → Option (List Nat)
  | [], _ => some []
  | id :: rest, level =>
    (level.findIdx? fun item => item.id = id).bind fun position =>
      level[position]?.bind fun item => (placeOf? rest item.sublevel).map (position :: ·)

def place? (tree : Tree) (path : String) : Option (List Nat) :=
  (Path.chain? path).bind fun ids => placeOf? ids tree

/-- Two trees that differ at most at a place and below it: every other item stands where it stood and is what it
was, apart from its children. -/
def SameBeside (place : List Nat) (tree tree' : Tree) : Prop :=
  ∀ other, ¬place <+: other → (itemIn? other tree').map Item.own = (itemIn? other tree).map Item.own

end Tree

namespace Item

theorem sublevel_alterAt (change : Item → Item) (position : Nat) (rest : List Nat) (item : Item) :
    (item.alterAt change (position :: rest)).sublevel =
      item.sublevel.modify position (alterAt change rest) := by
  cases item with
  | leaf details => exact (List.modify_nil _ _).symm
  | group details children => rfl

theorem own_alterAt_cons (change : Item → Item) (position : Nat) (rest : List Nat) (item : Item) :
    (item.alterAt change (position :: rest)).own = item.own := by
  cases item <;> rfl

theorem at?_alterAt (change : Item → Item) (place : List Nat) (item : Item) :
    (item.alterAt change place).at? place = (item.at? place).map change := by
  induction place generalizing item with
  | nil => rfl
  | cons position rest ih =>
    rw [at?, at?, sublevel_alterAt, List.getElem?_modify]
    cases item.sublevel[position]? with
    | none => rfl
    | some next => simpa using ih next

/-- On the way to the place an item keeps what it is, and its children keep their positions. -/
theorem own_alterAt (change : Item → Item) {place other : List Nat} (h : ¬place <+: other) (item : Item) :
    ((item.alterAt change place).at? other).map own = (item.at? other).map own := by
  induction place generalizing item other with
  | nil => exact absurd List.nil_prefix h
  | cons position rest ih =>
    cases other with
    | nil => exact congrArg some (own_alterAt_cons change position rest item)
    | cons first more =>
      rw [at?, at?, sublevel_alterAt, List.getElem?_modify]
      cases item.sublevel[first]? with
      | none => rfl
      | some next =>
        by_cases hp : position = first
        · subst hp
          have hmore : ¬rest <+: more := fun hr => h (List.cons_prefix_cons.mpr ⟨rfl, hr⟩)
          simpa using ih hmore next
        · simp [hp]

theorem alterAt_fixed {change : Item → Item} (place : List Nat) (item : Item)
    (h : ∀ found, item.at? place = some found → change found = found) : item.alterAt change place = item := by
  induction place generalizing item with
  | nil => exact h item rfl
  | cons position rest ih =>
    cases item with
    | leaf details => rfl
    | group details children =>
      refine congrArg (group details) (List.ext_getElem? fun first => ?_)
      rw [List.getElem?_modify]
      cases hc : children[first]? with
      | none => rfl
      | some next =>
        by_cases hp : position = first
        · subst hp
          have hnext := ih next fun found hf => h found (by simp [at?, sublevel, children?, hc, hf])
          simpa using hnext
        · simp [hp]

end Item

namespace Tree

/-- The tree below an item without an ID, so that a law for what is below an item is one for trees. -/
def rooted (tree : Tree) : Item := (Item.new "" .label).withChildren tree

theorem itemIn?_alterIn (change : Item → Item) (place : List Nat) (tree : Tree) :
    itemIn? place (alterIn change place tree) = (itemIn? place tree).map change := by
  cases place with
  | nil => rfl
  | cons position rest => exact Item.at?_alterAt change (position :: rest) tree.rooted

theorem sameBeside_alterIn (change : Item → Item) (place : List Nat) (tree : Tree) :
    SameBeside place tree (alterIn change place tree) := by
  intro other h
  cases place with
  | nil => exact absurd List.nil_prefix h
  | cons position rest =>
    cases other with
    | nil => rfl
    | cons first more => exact Item.own_alterAt change h tree.rooted

theorem alterIn_fixed {change : Item → Item} {place : List Nat} {tree : Tree}
    (h : ∀ found, itemIn? place tree = some found → change found = found) : alterIn change place tree = tree := by
  cases place with
  | nil => rfl
  | cons position rest => exact congrArg Item.sublevel (Item.alterAt_fixed (position :: rest) tree.rooted h)

theorem get?_eq_findIdx? (level : Tree) (id : String) :
    level.get? id = (level.findIdx? fun item => item.id = id).bind fun position => level[position]? :=
  List.find?_eq_bind_findIdx?_getElem?

theorem levelIn?_sublevel (place : List Nat) (item : Item) :
    levelIn? place item.sublevel = (item.at? place).map Item.sublevel := by
  cases place <;> rfl

theorem levelIn?_cons {position : Nat} {tree : Tree} {item : Item} (hp : tree[position]? = some item)
    (rest : List Nat) : levelIn? (position :: rest) tree = levelIn? rest item.sublevel := by
  rw [levelIn?_sublevel, levelIn?, itemIn?, hp, Option.bind_some]

theorem bind_placeOf?_cons {α : Type} (id : String) (rest : List String) (level : Tree)
    (next : List Nat → Option α) :
    (placeOf? (id :: rest) level).bind next =
      (level.findIdx? fun item => item.id = id).bind fun position =>
        level[position]?.bind fun item => (placeOf? rest item.sublevel).bind fun place =>
          next (position :: place) := by
  rw [placeOf?]
  cases level.findIdx? fun item => item.id = id with
  | none => rfl
  | some position =>
    simp only [Option.bind_some]
    cases level[position]? with
    | none => rfl
    | some item => simp only [Option.bind_some, Option.bind_map, Function.comp_def]

theorem placeOf?_snoc (ids : List String) (id : String) (tree : Tree) :
    placeOf? (ids ++ [id]) tree = (placeOf? ids tree).bind fun above =>
      (levelIn? above tree).bind fun level =>
        (level.findIdx? fun item => item.id = id).map fun position => above ++ [position] := by
  induction ids generalizing tree with
  | nil =>
    rw [List.nil_append, placeOf?]
    cases hf : tree.findIdx? fun item => item.id = id with
    | none => simp [placeOf?, levelIn?, hf]
    | some position =>
      obtain ⟨hin, -, -⟩ := List.findIdx?_eq_some_iff_getElem.mp hf
      simp [placeOf?, levelIn?, hf, hin]
  | cons first rest ih =>
    rw [bind_placeOf?_cons, List.cons_append, placeOf?]
    cases tree.findIdx? fun item => item.id = first with
    | none => rfl
    | some position =>
      simp only [Option.bind_some]
      cases hp : tree[position]? with
      | none => rfl
      | some item =>
        simp only [Option.bind_some, ih, Option.map_bind]
        refine Option.bind_congr fun above _ => ?_
        simp only [levelIn?_cons hp, Option.map_bind, Function.comp_def, Option.map_map]
        rfl

theorem ne_nil_of_placeOf? {ids : List String} {tree : Tree} {place : List Nat}
    (h : placeOf? ids tree = some place) (hne : ids ≠ []) : place ≠ [] := by
  cases ids with
  | nil => exact absurd rfl hne
  | cons id rest =>
    obtain ⟨position, _, h⟩ := Option.bind_eq_some_iff.mp h
    obtain ⟨item, _, h⟩ := Option.bind_eq_some_iff.mp h
    obtain ⟨deeper, _, rfl⟩ := Option.map_eq_some_iff.mp h
    simp

theorem itemIn?_sublevel {place : List Nat} (h : place ≠ []) (item : Item) :
    itemIn? place item.sublevel = item.at? place := by
  cases place with
  | nil => exact absurd rfl h
  | cons position rest => rfl

theorem descend?_eq_place (ids : List String) (tree : Tree) :
    descend? ids tree = (placeOf? ids tree).bind fun place => itemIn? place tree := by
  induction ids generalizing tree with
  | nil => rfl
  | cons id rest ih =>
    have hstep : descend? (id :: rest) tree = (tree.get? id).bind fun item =>
        (placeOf? rest item.sublevel).bind fun place => item.at? place := by
      by_cases hr : rest = []
      · subst hr
        cases hg : tree.get? id <;> simp [descend?, placeOf?, Item.at?, hg]
      · rw [descend?_cons hr]
        congr 1
        funext item
        rw [ih]
        refine Option.bind_congr fun place hp => itemIn?_sublevel (ne_nil_of_placeOf? hp hr) item
    rw [hstep, bind_placeOf?_cons, get?_eq_findIdx?]
    cases tree.findIdx? fun item => item.id = id with
    | none => rfl
    | some position =>
      simp only [Option.bind_some]
      cases hp : tree[position]? with
      | none => rfl
      | some item => simp [itemIn?, hp]

theorem change?_eq (id : String) (change : Item → Option Item) (level : Tree) :
    change? id change level =
      (level.findIdx? fun item => item.id = id).bind fun position =>
        level[position]?.bind fun item => (change item).map fun item' => level.set position item' := by
  induction level with
  | nil => rfl
  | cons first rest ih =>
    rw [change?, List.findIdx?_cons]
    by_cases hid : first.id = id
    · simp [hid]
    · simp only [hid, if_false, decide_false, ih]
      cases rest.findIdx? fun item => item.id = id with
      | none => rfl
      | some position => simp [Function.comp_def]

theorem modify_eq_set {level : Tree} {position : Nat} {item : Item} (h : level[position]? = some item)
    (change : Item → Item) : level.modify position change = level.set position (change item) := by
  obtain ⟨hin, rfl⟩ := List.getElem?_eq_some_iff.mp h
  refine List.ext_getElem? fun first => ?_
  rw [List.getElem?_modify, List.getElem?_set]
  by_cases hp : position = first
  · simp [← hp, hin]
  · simp [hp]

theorem alterAt_group {place : List Nat} (h : place ≠ []) (change : Item → Item) (details : Details)
    (children : List Item) :
    (Item.group details children).alterAt change place = .group details (alterIn change place children) := by
  cases place with
  | nil => exact absurd rfl h
  | cons position rest => rfl

/-- What is written at the end of a chain is written at the place that it leads to. -/
theorem alter?_eq_place {ids : List String} (hne : ids ≠ []) (change : Item → Item) (tree : Tree) :
    alter? change ids tree = (placeOf? ids tree).map fun place => alterIn change place tree := by
  induction ids generalizing tree with
  | nil => exact absurd rfl hne
  | cons id rest ih =>
    rw [Option.map_eq_bind, bind_placeOf?_cons]
    cases rest with
    | nil =>
      rw [alter?, change?_eq]
      cases tree.findIdx? fun item => item.id = id with
      | none => rfl
      | some position =>
        simp only [Option.bind_some]
        cases hp : tree[position]? with
        | none => rfl
        | some item => exact congrArg some (modify_eq_set hp change).symm
    | cons next more =>
      rw [alter?, change?_eq]
      cases tree.findIdx? fun item => item.id = id with
      | none => rfl
      | some position =>
        simp only [Option.bind_some]
        cases hp : tree[position]? with
        | none => rfl
        | some item =>
          simp only [Option.bind_some]
          cases item with
          | leaf details => rfl
          | group details children =>
            simp only [ih (by simp) children, Option.map_map]
            rw [Option.map_eq_bind]
            refine Option.bind_congr fun place hplace => congrArg some ?_
            have hbelow := ne_nil_of_placeOf? hplace (by simp)
            have hset : alterIn change (position :: place) tree =
                tree.set position (.group details (alterIn change place children)) :=
              (modify_eq_set hp _).trans (by rw [alterAt_group hbelow])
            exact hset.symm

end Tree

end Wayfinding
