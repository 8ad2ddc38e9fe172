import Wayfinding.LocaleMap

namespace Wayfinding

/-- A heading without a target, or a link to a fixed path per locale. -/
inductive Kind where
  | label
  | staticLink
deriving DecidableEq, Repr

/-- What an item says of itself, apart from its children. -/
structure Details where
  /-- The segment that addresses the item in a path; siblings differ in it. -/
  id : String
  kind : Kind
  /-- The item was part of the creation of its navigation. -/
  initial : Bool
  paths : LocaleMap
  labels : LocaleMap
deriving DecidableEq

inductive Item where
  | leaf (details : Details)
  | group (details : Details) (children : List Item)

namespace Item

mutual

def decEq : (a b : Item) → Decidable (a = b)
  | .leaf a, .leaf b => decidable_of_iff (a = b) (by simp)
  | .leaf _, .group _ _ => isFalse (by simp)
  | .group _ _, .leaf _ => isFalse (by simp)
  | .group a as, .group b bs =>
    have := decEqAll as bs
    decidable_of_iff (a = b ∧ as = bs) (by simp)

def decEqAll : (as bs : List Item) → Decidable (as = bs)
  | [], [] => isTrue rfl
  | [], _ :: _ => isFalse (by simp)
  | _ :: _, [] => isFalse (by simp)
  | a :: as, b :: bs =>
    have := decEq a b
    have := decEqAll as bs
    decidable_of_iff (a = b ∧ as = bs) (by simp)

end

instance : DecidableEq Item := decEq

def details : Item → Details
  | leaf details => details
  | group details _ => details

def children? : Item → Option (List Item)
  | leaf _ => none
  | group _ children => some children

def mapDetails (change : Details → Details) : Item → Item
  | leaf details => leaf (change details)
  | group details children => group (change details) children

def id (item : Item) : String := item.details.id

def initial (item : Item) : Bool := item.details.initial

def new (id : String) (kind : Kind) : Item :=
  leaf ⟨id, kind, false, LocaleMap.empty, LocaleMap.empty⟩

def withLabel (item : Item) (locale text : String) : Item :=
  item.mapDetails fun details => { details with labels := details.labels.insert locale text }

def withPath (item : Item) (locale path : String) : Item :=
  item.mapDetails fun details => { details with paths := details.paths.insert locale path }

/-- The item as a group of these children, whatever it was before. -/
def withChildren (item : Item) (children : List Item) : Item := group item.details children

/-- A label with a text for the default locale. -/
def labelItem (id label : String) : Item := (new id .label).withLabel LocaleMap.defaultLocale label

/-- A link with a text and a path for the default locale. -/
def staticLink (id label path : String) : Item :=
  ((new id .staticLink).withLabel LocaleMap.defaultLocale label).withPath LocaleMap.defaultLocale path

def label? (item : Item) (locale : String) : Option String := item.details.labels.localized? locale

def path? (item : Item) (locale : String) : Option String := item.details.paths.localized? locale

mutual

/-- The item and all its descendants with this initial flag. -/
def setInitial (flag : Bool) : Item → Item
  | leaf details => leaf { details with initial := flag }
  | group details children => group { details with initial := flag } (setInitialAll flag children)

def setInitialAll (flag : Bool) : List Item → List Item
  | [] => []
  | item :: rest => setInitial flag item :: setInitialAll flag rest

end

theorem setInitialAll_eq_map (flag : Bool) (items : List Item) :
    setInitialAll flag items = items.map (setInitial flag) := by
  induction items with
  | nil => rfl
  | cons item rest ih => rw [setInitialAll, ih, List.map_cons]

@[simp] theorem id_setInitial (flag : Bool) (item : Item) : (item.setInitial flag).id = item.id := by
  cases item <;> rfl

end Item

end Wayfinding
