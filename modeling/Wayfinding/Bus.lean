import Wayfinding.Event
import Wayfinding.Settings

namespace Wayfinding

structure Bus where
  /-- How many envelopes are kept. -/
  capacity : Nat
  /-- How many envelopes were published and are no longer kept. -/
  dropped : Nat
  /-- The latest envelopes, the oldest first. -/
  kept : List Envelope
  subscribers : Nat
  isOpen : Bool

/-- A filtered view of the bus. -/
structure Subscription where
  filter : EventFilter
  /-- The number of envelopes published before the next one to look at. -/
  next : Nat
deriving DecidableEq

inductive Arrival where
  | envelope (envelope : Envelope)
  /-- So many envelopes were lost. -/
  | lagged (skipped : Nat)
  /-- There is nothing at the moment. -/
  | nothing
  /-- There is nothing any more. -/
  | closed
deriving DecidableEq

namespace Bus

/-- The number of envelopes kept for a requested capacity: the next power of two, and at least one. -/
def capacityFor (requested : Nat) : Nat := (max requested 1).nextPowerOfTwo

def new (requested : Nat) : Bus := ⟨capacityFor requested, 0, [], 0, true⟩

def ofSettings (settings : Settings) : Bus := new settings.busCapacity

def published (bus : Bus) : Nat := bus.dropped + bus.kept.length

/-- Publishes an envelope and tells how many subscriptions will see it. Without any it is gone. -/
def publish (bus : Bus) (envelope : Envelope) : Nat × Bus :=
  if bus.subscribers = 0 then (0, bus)
  else
    let kept := bus.kept ++ [envelope]
    let excess := kept.length - bus.capacity
    (bus.subscribers, { bus with dropped := bus.dropped + excess, kept := kept.drop excess })

def publishAll (bus : Bus) (envelopes : List Envelope) : Bus :=
  envelopes.foldl (fun bus envelope => (bus.publish envelope).2) bus

def subscribe (bus : Bus) (filter : EventFilter) : Subscription × Bus :=
  (⟨filter, bus.published⟩, { bus with subscribers := bus.subscribers + 1 })

def unsubscribe (bus : Bus) : Bus := { bus with subscribers := bus.subscribers - 1 }

/-- Ends the publishing of envelopes. What is kept can still be received. -/
def close (bus : Bus) : Bus := { bus with isOpen := false }

/-- The kept envelopes that a subscription has not looked at. -/
def waiting (bus : Bus) (subscription : Subscription) : List Envelope :=
  bus.kept.drop (subscription.next - bus.dropped)

/-- Receives the next envelope that the filter accepts, or the notice of a loss before it. Envelopes that
the filter refuses are passed over. -/
def receive (bus : Bus) (subscription : Subscription) : Arrival × Subscription :=
  if subscription.next < bus.dropped then
    (.lagged (bus.dropped - subscription.next), { subscription with next := bus.dropped })
  else
    match (bus.waiting subscription).dropWhile fun envelope => !subscription.filter.accepts envelope with
    | envelope :: rest => (.envelope envelope, { subscription with next := bus.published - rest.length })
    | [] => (if bus.isOpen then .nothing else .closed, { subscription with next := bus.published })

end Bus

end Wayfinding
