import Wayfinding.Json.Snapshot
import Wayfinding.Lookup
import Wayfinding.Repository

namespace Wayfinding

open Json

/-- A request for a navigation of this name. The items become its initial items. -/
structure Creation where
  name : String
  items : List Item
deriving DecidableEq

namespace Creation

def commandName : String := "Create"

def new (name : String) : Creation := ⟨name, []⟩

def withItems (creation : Creation) (items : List Item) : Creation :=
  { creation with items := creation.items ++ items }

def toJson (creation : Creation) : Json :=
  .ofMembers [("name", .ofString creation.name), ("items", Tree.toJson creation.items)]

/-- The items may be missing. -/
def ofJson? : Nat → Json → Option Creation
  | 0, _ => none
  | budget + 1, value => do
    let [some name, items] ← value.fields? ["name", "items"] | none
    return ⟨← name.text?, ← items.elim (some []) (Tree.ofJson? false budget)⟩

/-- The name without blanks around it, if the index knows no navigation of this name. -/
def freeName (creation : Creation) (lookup : Lookup) : Except NavigationError String :=
  let name := Text.trim creation.name
  if (lookup.name? name).isSome then .error (.nameTaken name) else .ok name

/-- The navigation that the command asks for, under a fresh identity and not saved. -/
def build (creation : Creation) (lookup : Lookup) (fresh : Identity) : Except NavigationError Navigation :=
  (creation.freeName lookup).bind fun name => (Navigation.new fresh).create name creation.items

structure Handled where
  repository : Repository
  appended : List Envelope
  outcome : Except Failure Identity

def handle (creation : Creation) (lookup : Lookup) (repository : Repository) (now : Timestamp)
    (fresh : Identity) : Handled :=
  match creation.build lookup fresh with
  | .error error => ⟨repository, [], .error (.ofCause error)⟩
  | .ok nav =>
    let saved := repository.save now nav
    ⟨saved.repository, saved.appended,
      match saved.outcome with
      | .ok () => .ok fresh
      | .error error => .error ((Failure.ofCause error).within "save navigation")⟩

end Creation

end Wayfinding
