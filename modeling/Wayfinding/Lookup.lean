import Wayfinding.Error
import Wayfinding.Event
import Wayfinding.Table

namespace Wayfinding

structure Lookup where
  names : Table String Identity

namespace Lookup

def component : String := "lookup"

def empty : Lookup := ⟨.empty⟩

/-- The index follows creations only. -/
def filter : EventFilter := .named [(Event.created "").name]

def name? (lookup : Lookup) (name : String) : Option Identity := lookup.names.get? name

def size (lookup : Lookup) : Nat := lookup.names.size

/-- Takes an envelope into account. The first navigation of a name keeps it; another one is reported. -/
def project (lookup : Lookup) (envelope : Envelope) : Lookup × Option ProjectionError :=
  match envelope.event with
  | .created name =>
    match lookup.name? name with
    | none => (⟨lookup.names.insert name envelope.id⟩, none)
    | some existing =>
      if existing = envelope.id then (lookup, none)
      else (lookup, some (.duplicateName name existing envelope.id))
  | _ => (lookup, none)

/-- Takes a stored log into account, and gives the errors in their order. -/
def catchUp (lookup : Lookup) : List Envelope → Lookup × List ProjectionError
  | [] => (lookup, [])
  | envelope :: rest =>
    if filter.accepts envelope then
      let (lookup, error) := lookup.project envelope
      let (lookup, errors) := lookup.catchUp rest
      (lookup, error.toList ++ errors)
    else lookup.catchUp rest

end Lookup

end Wayfinding
