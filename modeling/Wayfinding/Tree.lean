import Wayfinding.Error
import Wayfinding.Item
import Wayfinding.Path

namespace Wayfinding

/-- A level of a navigation with everything below it, in the order in which it is shown. -/
abbrev Tree := List Item

namespace Tree

def ids (level : Tree) : List String := level.map Item.id

def get? (level : Tree) (id : String) : Option Item := level.find? fun item => item.id = id

/-- The item at the end of a chain of IDs. -/
def descend? : List String → Tree → Option Item
  | [], _ => none
  | [id], level => level.get? id
  | id :: next :: rest, level =>
    (level.get? id).bind fun item => item.children?.bind (descend? (next :: rest))

def item (tree : Tree) (path : String) : Except NavigationError Item :=
  match (Path.segments? path).bind fun ids => descend? ids tree with
  | some item => .ok item
  | none => .error (.itemNotFound path)

/-- The level at a path: the root level, or the children of the item there. A leaf has an empty one. -/
def level (tree : Tree) (path : String) : Except NavigationError Tree :=
  if path = "" then .ok tree else (tree.item path).map fun item => item.children?.getD []

/-- The level at a path if there is one; a leaf has none. -/
def existingLevel (tree : Tree) (path : String) : Except NavigationError (Option Tree) :=
  if path = "" then .ok (some tree) else (tree.item path).map Item.children?

/-- The level with the item of this ID replaced by what `change` makes of it. -/
def change? (id : String) (change : Item → Option Item) : Tree → Option Tree
  | [] => none
  | item :: rest =>
    if item.id = id then (change item).map (· :: rest)
    else (change? id change rest).map (item :: ·)

/-- The tree with a change made to the item at the end of a chain of IDs. -/
def alter? (change : Item → Item) : List String → Tree → Option Tree
  | [], _ => none
  | [id], level => change? id (fun item => some (change item)) level
  | id :: next :: rest, level =>
    change? id (fun
      | .leaf _ => none
      | .group details children => (alter? change (next :: rest) children).map (.group details)) level

def updateItem (tree : Tree) (path : String) (change : Item → Item) : Except NavigationError Tree :=
  match (Path.segments? path).bind fun ids => alter? change ids tree with
  | some tree => .ok tree
  | none => .error (.itemNotFound path)

/-- The tree with a change made to the level at a path. A leaf there becomes a group first. -/
def updateLevel (tree : Tree) (path : String) (change : Tree → Tree) : Except NavigationError Tree :=
  if path = "" then .ok (change tree)
  else tree.updateItem path fun item => item.withChildren (change (item.children?.getD []))

/-- The tree with a change made to the level at a path. A leaf there stays a leaf. -/
def updateExistingLevel (tree : Tree) (path : String) (change : Tree → Tree) :
    Except NavigationError Tree :=
  if path = "" then .ok (change tree)
  else tree.updateItem path fun
    | .leaf details => .leaf details
    | .group details children => .group details (change children)

/-- Accepts items whose IDs are new to the level and differ from each other. -/
def checkDuplicates (level : Tree) : List Item → Except NavigationError Unit
  | [] => .ok ()
  | item :: rest =>
    if item.id ∈ level.ids then .error (.duplicateItem item.id)
    else checkDuplicates (level ++ [item]) rest

/-- The level with items put in front of the one at `index`, or at its end. -/
def insert (level : Tree) (index : Nat) (items : List Item) : Tree :=
  level.take index ++ items ++ level.drop index

def without (level : Tree) (id : String) : Tree := level.eraseP fun item => item.id = id

def remove (level : Tree) (id : String) : Option Item × Tree := (level.get? id, level.without id)

/-- Takes the item at a path out of its level. The path is cut at its last separator, whatever its
segments are. -/
def removePath (tree : Tree) (path : String) : Option Item × Tree :=
  let (parent, id) := Path.splitLast path
  match tree.existingLevel parent with
  | .ok (some level) =>
    (level.get? id, (tree.updateExistingLevel parent (·.without id)).toOption.getD tree)
  | _ => (none, tree)

def replace (level : Tree) (id : String) (item : Item) : Option Item × Tree :=
  (level.get? id, (level.change? id fun _ => some item).getD level)

/-- Each text of a list at its first occurrence. -/
def firstOccurrences : List String → List String
  | [] => []
  | id :: rest => id :: (firstOccurrences rest).filter (· ≠ id)

/-- A requested order without repeated IDs and IDs that the level does not have. -/
def sortingFor (level : Tree) (sorting : List String) : List String :=
  firstOccurrences (sorting.filter fun id => id ∈ level.ids)

/-- Sorting by this normalized order changes the order of the level. -/
def wouldReorder (level : Tree) (sorting : List String) : Bool :=
  decide (sorting ++ level.ids.filter (· ∉ sorting) ≠ level.ids)

/-- The named items moved to the front in the order of their names, the others behind them as they were. -/
def sort : List String → Tree → Tree
  | [], level => level
  | id :: rest, level =>
    match level.get? id with
    | some item => item :: sort rest (level.without id)
    | none => sort rest level

def setInitial (tree : Tree) (flag : Bool) : Tree := Item.setInitialAll flag tree

mutual

/-- The paths of an item and its descendants, when its level is at `parent`. -/
def itemPaths (parent : String) : Item → List String
  | .leaf details => [Path.join parent details.id]
  | .group details children =>
    Path.join parent details.id :: levelPaths (Path.join parent details.id) children

def levelPaths (parent : String) : List Item → List String
  | [] => []
  | item :: rest => itemPaths parent item ++ levelPaths parent rest

end

def paths (tree : Tree) : List String := levelPaths "" tree

def initialPaths (tree : Tree) : List String :=
  tree.paths.filter fun path => (tree.item path).toOption.any Item.initial

theorem get?_id {level : Tree} {id : String} {item : Item} (h : level.get? id = some item) :
    item.id = id := by
  simpa using List.find?_some h

theorem get?_mem {level : Tree} {id : String} {item : Item} (h : level.get? id = some item) :
    item ∈ level := List.mem_of_find?_eq_some h

end Tree

end Wayfinding
