import Wayfinding.Item
import Wayfinding.Json.Record
import Wayfinding.Tree

namespace Wayfinding

open Json

namespace LocaleMap

/-- An object with the locales as keys. -/
def toJson (texts : LocaleMap) : Json :=
  .ofMembers (texts.entries.map fun (locale, text) => (locale, .ofString text))

def entry? (member : Option String × Json) : Option (String × String) :=
  match member.1, text? member.2 with
  | some locale, some text => some (locale, text)
  | _, _ => none

/-- Of several members with one key the last counts. -/
def ofJson? : Nat → Json → Option LocaleMap
  | _ + 1, .object members => (members.mapM entry?).map ofList
  | _, _ => none

end LocaleMap

namespace Kind

def name : Kind → String
  | label => "label"
  | staticLink => "static_link"

def toJson (kind : Kind) : Json := .ofString kind.name

def ofName? (name : String) : Option Kind :=
  if name = label.name then some label
  else if name = staticLink.name then some staticLink
  else none

def ofJson? (held : Bool) (budget : Nat) (value : Json) : Option Kind :=
  (choice? held budget value).bind ofName?

end Kind

/-- The fields of an item in the order in which they are written. -/
def Item.fieldNames : List String := ["id", "type", "initial", "paths", "labels", "tree"]

namespace Details

/-- The members of an item before its children. -/
def toMembers (details : Details) : List (String × Json) :=
  [("id", .ofString details.id), ("type", details.kind.toJson), ("initial", .bool details.initial),
   ("paths", details.paths.toJson), ("labels", details.labels.toJson)]

/-- The details from the values of their fields. Without a value a flag is off and a map is empty. -/
def ofFields? (held : Bool) (budget : Nat) (id kind initial paths labels : Option Json) :
    Option Details := do
  let id ← (← id).text?
  let kind ← Kind.ofJson? held budget (← kind)
  let initial ← initial.elim (some false) bool?
  let paths ← paths.elim (some LocaleMap.empty) (LocaleMap.ofJson? budget)
  let labels ← labels.elim (some LocaleMap.empty) (LocaleMap.ofJson? budget)
  return ⟨id, kind, initial, paths, labels⟩

end Details

mutual

def Item.toJson : Item → Json
  | .leaf details => .ofMembers (details.toMembers ++ [("tree", .null)])
  | .group details children =>
    .ofMembers (details.toMembers ++ [("tree", .array (Item.toJsonAll children))])

def Item.toJsonAll : List Item → List Json
  | [] => []
  | item :: rest => item.toJson :: Item.toJsonAll rest

end

def Tree.toJson (tree : Tree) : Json := .array (Item.toJsonAll tree)

mutual

def Item.ofJson? (held : Bool) : Nat → Json → Option Item
  | 0, _ => none
  | budget + 1, value =>
    match value.fields? Item.fieldNames with
    | some [id, kind, initial, paths, labels, tree] =>
      match Details.ofFields? held budget id kind initial paths labels with
      | none => none
      | some details =>
        match tree with
        | none | some .null => some (.leaf details)
        | some tree => (Tree.ofJson? held budget tree).map (.group details)
    | _ => none

def Tree.ofJson? (held : Bool) : Nat → Json → Option Tree
  | 0, _ => none
  | budget + 1, .array values => values.mapM (Item.ofJson? held budget)
  | _ + 1, _ => none

end

end Wayfinding
