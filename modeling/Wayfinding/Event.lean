import Wayfinding.Item
import Wayfinding.Timestamp
import Wayfinding.Identity

namespace Wayfinding

inductive Event where
  | created (name : String)
  /-- The index already fits the level at the path. -/
  | itemsAdded (items : List Item) (index : Nat) (path : String)
  /-- The paths of the removed items, in the order of their removal. -/
  | itemsRemoved (paths : List String)
  /-- The order has no repeated ID and only IDs of the level at the path. -/
  | sorted (sorting : List String) (path : String)
deriving DecidableEq

def Event.name : Event → String
  | created _ => "Created"
  | itemsAdded _ _ _ => "ItemsAdded"
  | itemsRemoved _ => "ItemsRemoved"
  | sorted _ _ => "Sorted"

/-- An event with its place in the stream of its navigation. -/
structure Envelope where
  id : Identity
  /-- The kind of thing that the event happened to. -/
  aggregateType : String
  /-- The position in the stream; the first is 1. -/
  version : Nat
  occurredAt : Timestamp
  event : Event
deriving DecidableEq

namespace Envelope

def navigationType : String := "nav"

def ofEvent (id : Identity) (version : Nat) (occurredAt : Timestamp) (event : Event) : Envelope :=
  ⟨id, navigationType, version, occurredAt, event⟩

def name (envelope : Envelope) : String := envelope.event.name

end Envelope

/-- Selects envelopes by kind and, if names are given, by the name of the event. -/
structure EventFilter where
  aggregateType : String
  names : Option (List String)
deriving DecidableEq

namespace EventFilter

def all : EventFilter := ⟨Envelope.navigationType, none⟩

def named (names : List String) : EventFilter := ⟨Envelope.navigationType, some names⟩

def accepts (filter : EventFilter) (envelope : Envelope) : Bool :=
  envelope.aggregateType = filter.aggregateType ∧ ∀ names ∈ filter.names, envelope.name ∈ names

end EventFilter

end Wayfinding
