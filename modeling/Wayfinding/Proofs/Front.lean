import Wayfinding.Proofs.Delivery
import Wayfinding.Proofs.RoundTrip
import Wayfinding.Proofs.Streams
import Wayfinding.Service

namespace Wayfinding

namespace Cache

/-- What a fetch reports of what the repository answered. -/
def outcome (id : Identity) (fetched : Except NavigationError Navigation) : Except Failure Navigation :=
  fetched.mapError fun error => (Failure.ofCause error).within ("fetch Nav " ++ id.text)

/-- A fetch that nothing comes between. -/
def fetch (cache : Cache) (repository : Repository) (id : Identity) : Except Failure Navigation × Cache :=
  match cache.read id with
  | (.hit nav, cache) => (.ok nav, cache)
  | (.miss load, cache) => cache.complete load (repository.fetch id)

theorem complete_outcome (cache : Cache) (load : Load) (fetched : Except NavigationError Navigation) :
    (cache.complete load fetched).1 = outcome load.id fetched := by
  cases fetched <;> rfl

/-- Such is a fetch from a service whose repository answers at once. -/
theorem fetch_beginFetch (service : Service) (ticket : Nat) (id : Identity) (h : service.fetchDelay = 0) :
    (service.beginFetch ticket id).cache = (service.cache.fetch service.repository id).2 ∧
      (service.beginFetch ticket id).fetched =
        (ticket, (service.cache.fetch service.repository id).1) :: service.fetched := by
  unfold Service.beginFetch fetch
  rcases service.cache.read id with ⟨nav | load, cache⟩
  · exact ⟨rfl, rfl⟩
  · simp [h, Service.endFetch]

end Cache

/-- A load on its way, and what the repository has answered so far. -/
structure Loading where
  load : Cache.Load
  answer : Option (Except NavigationError Navigation)

structure Front where
  repository : Repository
  bus : Bus
  /-- What is stored already but not published yet by its saves. -/
  outbox : List Envelope
  follower : Follower
  cache : Cache
  loads : Table Nat Loading

inductive Turn where
  /-- The first half of a save: stores. -/
  | append (nav : Navigation) (now : Timestamp)
  /-- The second half of a save, for one envelope: publishes. -/
  | publish (place : Nat)
  | delete (nav : Navigation)
  /-- The cache takes what comes next on the bus. -/
  | deliver
  | invalidate (id : Identity)
  /-- A fetch begins: it ends here on a hit, and on a miss it becomes a load. -/
  | begin (ticket : Nat) (id : Identity)
  /-- The repository looks up what a load asks for. -/
  | answer (ticket : Nat)
  /-- A load brings back what the repository answered. -/
  | finish (ticket : Nat)
  | timeOut (id : Identity) (generation : Nat)

def Turn.deletes : Turn → Bool
  | delete _ => true
  | _ => false

namespace Front

/-- A cache that was just started on the bus. -/
def start (repository : Repository) (bus : Bus) (errorBuffer : Nat) : Front where
  repository := repository
  bus := (bus.subscribe .all).2
  outbox := []
  follower := .new Cache.component (bus.subscribe .all).1 errorBuffer
  cache := .empty
  loads := .empty

def step (front : Front) : Turn → Front
  | .append nav now =>
    { front with
      repository := (front.repository.save now nav).repository
      outbox := front.outbox ++ (front.repository.save now nav).appended }
  | .publish place =>
    match front.outbox[place]? with
    | some envelope =>
      { front with bus := (front.bus.publish envelope).2, outbox := front.outbox.eraseIdx place }
    | none => front
  | .delete nav =>
    match front.repository.delete nav with
    | .ok repository => { front with repository := repository }
    | .error _ => front
  | .deliver =>
    match front.follower.step? Service.invalidateFor front.bus (front.cache, []) with
    | some ((cache, _), follower) => { front with cache := cache, follower := follower }
    | none => front
  | .invalidate id => { front with cache := front.cache.invalidate id }
  | .begin ticket id =>
    match front.cache.read id with
    | (.hit _, cache) => { front with cache := cache }
    | (.miss load, cache) =>
      { front with cache := cache, loads := front.loads.insert ticket ⟨load, none⟩ }
  | .answer ticket =>
    match front.loads.get? ticket with
    | some ⟨load, none⟩ =>
      { front with loads := front.loads.insert ticket ⟨load, some (front.repository.fetch load.id)⟩ }
    | _ => front
  | .finish ticket =>
    match front.loads.get? ticket with
    | some ⟨load, some fetched⟩ =>
      { front with
        cache := (front.cache.complete load fetched).2
        loads := front.loads.erase ticket }
    | _ => front
  | .timeOut id generation => { front with cache := front.cache.expire id generation }

/-- The envelopes that the cache has not taken from the bus. -/
def queue (front : Front) : List Envelope := front.bus.waiting front.follower.subscription

/-- The entry of a navigation does not decode to what the repository holds. -/
def Stale (front : Front) (id : Identity) : Prop :=
  ∃ bytes, front.cache.entries.get? id = some bytes ∧
    Navigation.ofBytes bytes ≠ front.repository.fetch id

/-- The bus has dropped nothing that the cache has not seen, and a machine can hold what is stored. -/
structure Calm (front : Front) : Prop where
  caughtUp : front.bus.dropped ≤ front.follower.subscription.next
  fits : ∀ id nav, front.repository.fetch id = .ok nav → nav.Fits

/-- It is enough to look at the streams that there are. -/
theorem calm_iff (front : Front) : front.Calm ↔
    front.bus.dropped ≤ front.follower.subscription.next ∧ ∀ row ∈ front.repository.streams.rows,
      (Navigation.ofEvents row.1 (front.repository.eventsOf row.1)).Fits ∨
        front.repository.eventsOf row.1 = [] := by
  constructor
  · intro h
    refine ⟨h.caughtUp, ?_⟩
    intro row hr
    by_cases he : front.repository.eventsOf row.1 = []
    · exact .inr he
    · exact .inl (h.fits row.1 _ (Repository.fetch_eq_ok.mpr ⟨he, rfl⟩))
  · rintro ⟨hc, hr⟩
    refine ⟨hc, ?_⟩
    intro id nav hf
    obtain ⟨hne, rfl⟩ := Repository.fetch_eq_ok.mp hf
    have hs : front.repository.streams.get? id ≠ none := by
      intro hn
      simp [Repository.eventsOf, Repository.stream, hn] at hne
    obtain ⟨row, hrow, hid⟩ : ∃ row ∈ front.repository.streams.rows, row.1 = id := by
      simpa [Table.get?, List.find?_eq_none] using hs
    subst hid
    exact (hr row hrow).resolve_right hne

instance (front : Front) : Decidable front.Calm := decidable_of_iff _ (calm_iff front).symm

/-- The states that calm turns lead to, other than deletions. -/
inductive Reached : Front → Prop where
  | start (repository : Repository) (bus : Bus) (errorBuffer : Nat) (ho : bus.isOpen = true)
      (hc : (start repository bus errorBuffer).Calm) : Reached (start repository bus errorBuffer)
  | step {front : Front} (h : Reached front) (turn : Turn) (hk : turn.deletes = false)
      (hc : (front.step turn).Calm) : Reached (front.step turn)

end Front

end Wayfinding
