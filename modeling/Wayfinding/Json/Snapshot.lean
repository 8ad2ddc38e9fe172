import Wayfinding.Json.Event
import Wayfinding.Json.Reader
import Wayfinding.Json.Writer
import Wayfinding.Navigation

namespace Wayfinding

open Json

namespace Snapshot

def toJson (state : Snapshot) : Json :=
  .ofMembers [("id", state.id.toJson), ("version", .ofNat state.version), ("name", .ofString state.name),
    ("tree", state.tree.toJson)]

def ofJson? : Nat → Json → Option Snapshot
  | 0, _ => none
  | budget + 1, value => do
    let [some id, some version, some name, some tree] ←
      value.fields? ["id", "version", "name", "tree"] | none
    return ⟨← Identity.ofJson? id, ← version.word?, ← name.text?, ← Tree.ofJson? false budget tree⟩

end Snapshot

namespace Navigation

def toJsonText (nav : Navigation) : String := nav.toSnapshot.toJson.text

/-- The navigation whose state a text holds, with nothing to save. -/
def ofJsonText (text : String) : Except NavigationError Navigation :=
  match (Json.parse? text).bind (Snapshot.ofJson? nestingLimit) with
  | some state => .ok (ofSnapshot state)
  | none => .error (.encoding "not the text of a navigation")

end Navigation

end Wayfinding
