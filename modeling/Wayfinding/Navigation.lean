import Wayfinding.Event
import Wayfinding.Text.Blank
import Wayfinding.Tree

namespace Wayfinding

/-- The state of a navigation as its events have left it. -/
structure Snapshot where
  id : Identity
  version : Nat
  name : String
  tree : Tree
deriving DecidableEq

namespace Snapshot

def blank (id : Identity) : Snapshot := ⟨id, 0, "", []⟩

/-- The name and tree after an event. What an event says of a level that is not there is dropped. -/
def fold (name : String) (tree : Tree) : Event → String × Tree
  | .created name => (name, [])
  | .itemsAdded items index path =>
    (name, (tree.updateLevel path (·.insert index items)).toOption.getD tree)
  | .itemsRemoved paths => (name, paths.foldl (fun tree path => (tree.removePath path).2) tree)
  | .sorted sorting path =>
    (name, (tree.updateExistingLevel path (Tree.sort sorting)).toOption.getD tree)

def apply (state : Snapshot) (event : Event) : Snapshot :=
  let (name, tree) := fold state.name state.tree event
  { state with version := state.version + 1, name := name, tree := tree }

/-- The state that a log of events leads to. -/
def replay (id : Identity) (events : List Event) : Snapshot := events.foldl apply (blank id)

/-- A navigation has a name from its creation on. -/
def isCreated (state : Snapshot) : Bool := state.name ≠ ""

end Snapshot

/-- A navigation: its state, and the events recorded since the last save, which the state contains. -/
structure Navigation extends Snapshot where
  uncommitted : List Event
deriving DecidableEq

inductive Intent where
  | create (name : String) (items : List Item)
  | insert (index : Int) (items : List Item)
  | insertAt (path : String) (index : Int) (items : List Item)
  | prepend (items : List Item)
  | prependAt (path : String) (items : List Item)
  | append (items : List Item)
  | appendAt (path : String) (items : List Item)
  | remove (paths : List String)
  | sort (sorting : List String)
  | sortAt (path : String) (sorting : List String)

namespace Navigation

/-- A navigation in a given state, with nothing to save. -/
def ofSnapshot (state : Snapshot) : Navigation := { state with uncommitted := [] }

def new (id : Identity) : Navigation := ofSnapshot (.blank id)

/-- The navigation that a log of events leads to, with nothing to save. -/
def ofEvents (id : Identity) (events : List Event) : Navigation := ofSnapshot (.replay id events)

/-- The version of the last saved event. -/
def committedVersion (nav : Navigation) : Nat := nav.version - nav.uncommitted.length

def apply (nav : Navigation) (event : Event) : Navigation :=
  { nav with toSnapshot := nav.toSnapshot.apply event }

def record (nav : Navigation) (event : Event) : Navigation :=
  { nav.apply event with uncommitted := nav.uncommitted ++ [event] }

/-- Hands over the events to save. -/
def takeUncommitted (nav : Navigation) : List Event × Navigation :=
  (nav.uncommitted, { nav with uncommitted := [] })

mutual

/-- Accepts an item if all IDs in it can be addressed and differ from those of their siblings. -/
def checkItem : Item → Except NavigationError Unit
  | .leaf details =>
    if Path.ValidId details.id then .ok () else .error (.invalidId details.id)
  | .group details children =>
    if Path.ValidId details.id then
      match Tree.checkDuplicates [] children with
      | .ok () => checkItems children
      | .error error => .error error
    else .error (.invalidId details.id)

/-- Accepts items one by one. Those of the list itself are not compared with each other. -/
def checkItems : List Item → Except NavigationError Unit
  | [] => .ok ()
  | item :: rest =>
    match checkItem item with
    | .ok () => checkItems rest
    | .error error => .error error

end

/-- Creates the navigation. The items with all their descendants are there to stay. -/
def create (nav : Navigation) (name : String) (items : List Item) :
    Except NavigationError Navigation := do
  if nav.isCreated then throw (.alreadyCreated nav.id)
  let name := Text.trim name
  if name = "" then throw .emptyName
  checkItems items
  Tree.checkDuplicates [] items
  let nav := nav.record (.created name)
  if items.isEmpty then return nav
  return nav.record (.itemsAdded (Tree.setInitial items true) 0 "")

/-- Inserts items into the level at a path, in front of the one at `index` or at the end. No items record
nothing, but the level must be there. -/
def insertAt (nav : Navigation) (path : String) (index : Int) (items : List Item) :
    Except NavigationError Navigation := do
  if index < 0 then throw (.negativeIndex index)
  let level ← nav.tree.level path
  if items.isEmpty then return nav
  checkItems items
  level.checkDuplicates items
  return nav.record (.itemsAdded (Tree.setInitial items false) (min index.toNat level.length) path)

def appendAt (nav : Navigation) (path : String) (items : List Item) :
    Except NavigationError Navigation := do
  let level ← nav.tree.level path
  nav.insertAt path level.length items

/-- The given paths that lead to an item, if none of these is initial. -/
def removable (nav : Navigation) : List String → Except NavigationError (List String)
  | [] => .ok []
  | path :: rest =>
    match nav.tree.item path with
    | .ok item => if item.initial then .error (.initialItem path) else (removable nav rest).map (path :: ·)
    | .error _ => removable nav rest

/-- Removes the items at the given paths; paths that lead nowhere are skipped. One initial item among them
and nothing is removed. -/
def remove (nav : Navigation) (paths : List String) : Except NavigationError Navigation := do
  let found ← nav.removable paths
  if found.isEmpty then return nav
  return nav.record (.itemsRemoved found)

/-- Moves the named items to the front of the level at a path, in the order of their names. A request that
changes nothing records nothing. -/
def sortAt (nav : Navigation) (path : String) (sorting : List String) :
    Except NavigationError Navigation := do
  let level ← nav.tree.level path
  let sorting := level.sortingFor sorting
  if level.wouldReorder sorting then return nav.record (.sorted sorting path)
  return nav

def perform (nav : Navigation) : Intent → Except NavigationError Navigation
  | .create name items => nav.create name items
  | .insert index items => nav.insertAt "" index items
  | .insertAt path index items => nav.insertAt path index items
  | .prepend items => nav.insertAt "" 0 items
  | .prependAt path items => nav.insertAt path 0 items
  | .append items => nav.appendAt "" items
  | .appendAt path items => nav.appendAt path items
  | .remove paths => nav.remove paths
  | .sort sorting => nav.sortAt "" sorting
  | .sortAt path sorting => nav.sortAt path sorting

/-- The navigation after an intent; one that can not be done leaves it as it was. -/
def attempt (nav : Navigation) (intent : Intent) : Navigation :=
  (nav.perform intent).toOption.getD nav

end Navigation

namespace Sample

/-- The item foo, and bar over baz over foo, bar and baz. -/
def nestedItems : List Item :=
  [.labelItem "foo" "Foo",
   (Item.labelItem "bar" "Bar").withChildren
     [(Item.labelItem "baz" "Baz").withChildren
       [.staticLink "foo" "Foo" "/bar/baz/foo",
        .staticLink "bar" "Bar" "/bar/baz/bar",
        .staticLink "baz" "Baz" "/bar/baz/baz"]]]

def flatItems : List Item := ["foo", "bar", "baz", "qux"].map fun id => .labelItem id id

def navigation (id : Identity) (name : String) : Except Failure Navigation :=
  ((Navigation.new id).create name nestedItems).mapError .ofCause

end Sample

end Wayfinding
