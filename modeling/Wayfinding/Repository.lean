import Wayfinding.Navigation
import Wayfinding.Table

namespace Wayfinding

structure Repository where
  streams : Table Identity (List Envelope)
  log : List Envelope

namespace Repository

def empty : Repository := ⟨.empty, []⟩

/-- The stream of a navigation; one that is not stored has none. -/
def stream (repository : Repository) (id : Identity) : List Envelope :=
  (repository.streams.get? id).getD []

def size (repository : Repository) : Nat := repository.streams.size

/-- The envelopes of some events, with consecutive versions. -/
def envelopes (id : Identity) (occurredAt : Timestamp) : Nat → List Event → List Envelope
  | _, [] => []
  | version, event :: rest =>
    .ofEvent id version occurredAt event :: envelopes id occurredAt (version + 1) rest

structure Saved where
  repository : Repository
  navigation : Navigation
  /-- The envelopes that were stored and are now to be published. -/
  appended : List Envelope
  outcome : Except NavigationError Unit

/-- Appends the uncommitted events of a navigation to its stream. A stream is opened before the version is
compared, so a refused save of a navigation without a stream leaves an empty one. -/
def save (repository : Repository) (now : Timestamp) (nav : Navigation) : Saved :=
  if nav.uncommitted.isEmpty then ⟨repository, nav, [], .ok ()⟩
  else
    let stored := repository.stream nav.id
    if stored.length = nav.committedVersion then
      let appended := envelopes nav.id now (nav.committedVersion + 1) nav.uncommitted
      { repository :=
          { streams := repository.streams.insert nav.id (stored ++ appended)
            log := repository.log ++ appended }
        navigation := nav.takeUncommitted.2
        appended := appended
        outcome := .ok () }
    else
      { repository := { repository with streams := repository.streams.insert nav.id stored }
        navigation := nav
        appended := []
        outcome := .error (.concurrencyConflict nav.id nav.committedVersion stored.length) }

/-- Rebuilds a navigation from its stream. An empty stream holds none. -/
def fetch (repository : Repository) (id : Identity) : Except NavigationError Navigation :=
  match repository.stream id with
  | [] => .error (.notFound id)
  | stream => .ok (.ofEvents id (stream.map Envelope.event))

/-- Drops the stream of a navigation. Its envelopes stay in the log. -/
def delete (repository : Repository) (nav : Navigation) : Except NavigationError Repository :=
  if repository.streams.contains nav.id then
    .ok { repository with streams := repository.streams.erase nav.id }
  else .error (.notFound nav.id)

structure Used where
  repository : Repository
  appended : List Envelope
  outcome : Except NavigationError Navigation

/-- Fetches a navigation, changes it and saves it. A change that fails is not saved. -/
def use (repository : Repository) (now : Timestamp) (id : Identity)
    (change : Navigation → Except NavigationError Navigation) : Used :=
  match (repository.fetch id).bind change with
  | .error error => ⟨repository, [], .error error⟩
  | .ok nav =>
    let saved := repository.save now nav
    ⟨saved.repository, saved.appended, saved.outcome.map fun _ => saved.navigation⟩

end Repository

end Wayfinding
