import Wayfinding.Event
import Wayfinding.Json.Item

namespace Wayfinding

open Json

namespace Identity

def toJson (id : Identity) : Json := .ofString id.text

def ofJson? (value : Json) : Option Identity := value.text?.bind parse?

end Identity

namespace Timestamp

def toJson (time : Timestamp) : Json := .ofString time.text

def ofJson? (value : Json) : Option Timestamp := value.text?.bind parse?

end Timestamp

namespace Event

def payload : Event → List (String × Json)
  | created name => [("name", .ofString name)]
  | itemsAdded items index path =>
    [("items", Tree.toJson items), ("index", .ofNat index), ("path", .ofString path)]
  | itemsRemoved paths => [("items", .array (paths.map .ofString))]
  | sorted sorting path => [("sorting", .array (sorting.map .ofString)), ("path", .ofString path)]

def toJson (event : Event) : Json :=
  .ofMembers [("type", .ofString event.name), ("payload", .ofMembers event.payload)]

/-- The event of a given type with this payload, which has to be an object. -/
def ofPayload? (held : Bool) (type : String) : Nat → Json → Option Event
  | budget + 1, .object members =>
    let value := Json.object members
    if type = "Created" then do
      let [some name] ← value.fields? ["name"] | none
      return created (← name.text?)
    else if type = "ItemsAdded" then do
      let [some items, some index, some path] ← value.fields? ["items", "index", "path"] | none
      return itemsAdded (← Tree.ofJson? held budget items) (← index.word?) (← path.text?)
    else if type = "ItemsRemoved" then do
      let [some items] ← value.fields? ["items"] | none
      return itemsRemoved (← texts? budget items)
    else if type = "Sorted" then do
      let [some sorting, some path] ← value.fields? ["sorting", "path"] | none
      return sorted (← texts? budget sorting) (← path.text?)
    else none
  | _, _ => none

/-- The first member with one of two keys has the first of them. -/
def comesFirst (first second : String) (members : List (Option String × Json)) : Bool :=
  (members.find? fun entry => entry.1 = some first ∨ entry.1 = some second).any
    fun entry => entry.1 = some first

def ofJson? : Nat → Json → Option Event
  | budget + 1, .object members => do
    let [some type, some payload] ← (Json.object members).fields? ["type", "payload"] | none
    let held := comesFirst "payload" "type" members
    if held ∧ ¬canHold budget payload then none
    else ofPayload? held (← choice? false budget type) budget payload
  | budget + 1, .array [type, payload] => do
    ofPayload? false (← type.text?) budget payload
  | _, _ => none

end Event

namespace Envelope

def toJson (envelope : Envelope) : Json :=
  .ofMembers [("aggregate_id", envelope.id.toJson), ("aggregate_type", .ofString envelope.aggregateType),
    ("version", .ofNat envelope.version), ("occurred_at", envelope.occurredAt.toJson),
    ("event", envelope.event.toJson)]

def ofJson? : Nat → Json → Option Envelope
  | 0, _ => none
  | budget + 1, value => do
    let [some id, some aggregateType, some version, some occurredAt, some event] ←
      value.fields? ["aggregate_id", "aggregate_type", "version", "occurred_at", "event"] | none
    return ⟨← Identity.ofJson? id, ← aggregateType.text?, ← version.word?,
      ← Timestamp.ofJson? occurredAt, ← Event.ofJson? budget event⟩

end Envelope

end Wayfinding
