import Wayfinding.Table
import Wayfinding.Wire.Snapshot

namespace Wayfinding

structure Cache where
  entries : Table Identity (List UInt8)
  /-- The generation of the timer that runs for a navigation. -/
  pending : Table Identity Nat
  /-- The generation of the latest invalidation of a navigation. -/
  epochs : Table Identity Nat
  generation : Nat

namespace Cache

def component : String := "cache"

def empty : Cache := ⟨.empty, .empty, .empty, 0⟩

def contains (cache : Cache) (id : Identity) : Bool := cache.entries.contains id

def size (cache : Cache) : Nat := cache.entries.size

/-- Starts the timer of a navigation anew. The timer to be set carries the generation before this. -/
def invalidate (cache : Cache) (id : Identity) : Cache :=
  { cache with
    pending := cache.pending.insert id cache.generation
    epochs := cache.epochs.insert id cache.generation
    generation := cache.generation + 1 }

/-- Gives up all timers. Entries stay. -/
def shutdown (cache : Cache) : Cache := { cache with pending := .empty }

/-- A timer runs out: the entry goes, if the timer is the pending one. -/
def expire (cache : Cache) (id : Identity) (generation : Nat) : Cache :=
  if cache.pending.get? id = some generation then
    { cache with pending := cache.pending.erase id, entries := cache.entries.erase id }
  else cache

/-- A fetch that the cache could not answer. -/
structure Load where
  id : Identity
  /-- The latest invalidation when the load began. -/
  epoch : Option Nat
deriving DecidableEq

/-- How a fetch begins: with a copy of an entry, or with a load from the repository. -/
inductive Reading where
  | hit (navigation : Navigation)
  | miss (load : Load)

/-- Begins a fetch. An entry that can not be decoded is dropped. -/
def read (cache : Cache) (id : Identity) : Reading × Cache :=
  match cache.entries.get? id with
  | none => (.miss ⟨id, cache.epochs.get? id⟩, cache)
  | some bytes =>
    match Navigation.ofBytes bytes with
    | .ok nav => (.hit nav, cache)
    | .error _ =>
      (.miss ⟨id, cache.epochs.get? id⟩, { cache with entries := cache.entries.erase id })

/-- Keeps what a load brought, unless its navigation was invalidated since or has a timer running. -/
def store (cache : Cache) (load : Load) (bytes : List UInt8) : Cache :=
  if cache.epochs.get? load.id = load.epoch ∧ ¬cache.pending.contains load.id then
    { cache with entries := cache.entries.insert load.id bytes }
  else cache

/-- Ends a load with what the repository answered. -/
def complete (cache : Cache) (load : Load) (fetched : Except NavigationError Navigation) :
    Except Failure Navigation × Cache :=
  match fetched with
  | .ok nav => (.ok nav, cache.store load nav.toBytes)
  | .error error => (.error ((Failure.ofCause error).within ("fetch Nav " ++ load.id.text)), cache)

end Cache

end Wayfinding
