import Wayfinding.Cache
import Wayfinding.Creation
import Wayfinding.Follower

namespace Wayfinding

/-- A piece of work behind the requests. -/
inductive Job where
  | followNames
  | followEvents
  /-- The timer of an invalidation is set. -/
  | setTimer (id : Identity) (generation : Nat)
  /-- The timer of an invalidation has run out. -/
  | timeOut (id : Identity) (generation : Nat)
  | beginFetch (ticket : Nat) (id : Identity)
  | endFetch (ticket : Nat) (load : Cache.Load) (fetched : Except NavigationError Navigation)

structure Service where
  settings : Settings
  /-- How long the repository takes to answer a load, after it has looked. -/
  fetchDelay : Nat
  /-- The repository publishes what it stores. -/
  publishes : Bool
  repository : Repository
  fetches : Nat
  bus : Bus
  lookup : Lookup
  /-- How many errors of the name index can wait. -/
  lookupBuffer : Nat
  cache : Cache
  /-- The follower that feeds the name index, once it was started. -/
  lookupFollower : Option Follower
  /-- The follower that feeds the cache, once it was started. -/
  cacheFollower : Option Follower
  clock : Nat
  /-- The jobs to run, the first first. -/
  ready : List Job
  /-- The jobs that wait for a time, the earliest first. -/
  timed : List (Nat × Job)
  /-- The fetches that came to an end, by their tickets. -/
  fetched : List (Nat × Except Failure Navigation)
  nextTicket : Nat

namespace Service

/-- A service in which nothing was started. The bus and the name index may have settings of their own. -/
def new (settings shared : Settings) (fetchDelay : Nat) (publishes : Bool) : Service where
  settings := settings
  fetchDelay := fetchDelay
  publishes := publishes
  repository := .empty
  fetches := 0
  bus := .ofSettings shared
  lookup := .empty
  lookupBuffer := shared.errorBuffer
  cache := .empty
  lookupFollower := none
  cacheFollower := none
  clock := 0
  ready := []
  timed := []
  fetched := []
  nextTicket := 0

/-- No wait for a time is longer than this many milliseconds, which are thirty years of 365 days. -/
def longestWait : Nat := 30 * 365 * 24 * 60 * 60 * 1000

/-- The time at which a wait of so many milliseconds ends, if it begins now. -/
def endOfWait (service : Service) (milliseconds : Nat) : Nat :=
  service.clock + min milliseconds longestWait

def now (service : Service) : Timestamp := .ofMilliseconds service.clock

/-- The followers that wait for the bus become ready, unless they are. -/
def wakeListeners (service : Service) : Service :=
  let listens (follower : Option Follower) : Bool := follower.any fun follower => follower.phase = .listening
  let waits (job : Job → Bool) : Bool := !service.ready.any job
  let names := listens service.lookupFollower && waits fun | .followNames => true | _ => false
  let events := listens service.cacheFollower && waits fun | .followEvents => true | _ => false
  { service with
    ready := service.ready ++ (if names then [.followNames] else [])
      ++ (if events then [.followEvents] else []) }

/-- Publishes an envelope and tells how many subscriptions will see it. -/
def publish (service : Service) (envelope : Envelope) : Nat × Service :=
  let (count, bus) := service.bus.publish envelope
  let service := { service with bus := bus }
  (count, service.wakeListeners)

/-- Takes over what the repository stored, and publishes it if the repository does that. -/
def adopt (service : Service) (repository : Repository) (appended : List Envelope) : Service :=
  let service := { service with repository := repository }
  if service.publishes ∧ appended ≠ [] then
    wakeListeners { service with bus := service.bus.publishAll appended }
  else service

/-- The job goes to its time, behind those that wait for the same time. -/
def schedule (time : Nat) (job : Job) : List (Nat × Job) → List (Nat × Job)
  | [] => [(time, job)]
  | first :: rest =>
    if first.1 ≤ time then first :: schedule time job rest else (time, job) :: first :: rest

/-- The bus after a follower went from one phase to another; one that stops ends its subscription. -/
def busAfter (service : Service) (before after : Follower) : Bus :=
  if before.phase ≠ .stopped ∧ after.phase = .stopped then service.bus.unsubscribe else service.bus

def followNames (service : Service) : Service :=
  match service.lookupFollower with
  | none => service
  | some before =>
    let (lookup, after) := before.run Lookup.project service.bus service.lookup
    { service with
      lookup := lookup
      lookupFollower := some after
      bus := service.busAfter before after }

/-- An envelope restarts the timer of its navigation; the timers to set are kept in order. -/
def invalidateFor (state : Cache × List Job) (envelope : Envelope) :
    (Cache × List Job) × Option ProjectionError :=
  ((state.1.invalidate envelope.id,
    state.2 ++ [.setTimer envelope.id state.1.generation]), none)

/-- The cache takes what it finds on the bus. When it stops it gives up its timers. -/
def followEvents (service : Service) : Service :=
  match service.cacheFollower with
  | none => service
  | some before =>
    let ((cache, jobs), after) := before.run invalidateFor service.bus (service.cache, [])
    { service with
      cache := if before.phase ≠ .stopped ∧ after.phase = .stopped then cache.shutdown else cache
      cacheFollower := some after
      bus := service.busAfter before after
      ready := service.ready ++ jobs }

/-- Ends a fetch: what the repository answered goes through the cache to the one who asked. -/
def endFetch (service : Service) (ticket : Nat) (load : Cache.Load)
    (fetched : Except NavigationError Navigation) : Service :=
  let (outcome, cache) := service.cache.complete load fetched
  { service with cache := cache, fetched := (ticket, outcome) :: service.fetched }

/-- Begins a fetch: it ends at once on a hit, and else when the repository has answered. -/
def beginFetch (service : Service) (ticket : Nat) (id : Identity) : Service :=
  match service.cache.read id with
  | (.hit nav, cache) => { service with cache := cache, fetched := (ticket, .ok nav) :: service.fetched }
  | (.miss load, cache) =>
    let service := { service with cache := cache, fetches := service.fetches + 1 }
    let answer := service.repository.fetch id
    if service.fetchDelay = 0 then service.endFetch ticket load answer
    else
      { service with
        timed := schedule (service.endOfWait service.fetchDelay) (.endFetch ticket load answer) service.timed }

def runJob (service : Service) : Job → Service
  | .followNames => service.followNames
  | .followEvents => service.followEvents
  | .setTimer id generation =>
    if service.settings.debounceMs = 0 then { service with cache := service.cache.expire id generation }
    else
      { service with
        timed := schedule (service.endOfWait service.settings.debounceMs) (.timeOut id generation)
          service.timed }
  | .timeOut id generation => { service with cache := service.cache.expire id generation }
  | .beginFetch ticket id => service.beginFetch ticket id
  | .endFetch ticket load fetched => service.endFetch ticket load fetched

/-- Runs the jobs that are ready, but not those that become ready meanwhile. -/
def runReady (service : Service) : Service :=
  service.ready.foldl runJob { service with ready := [] }

/-- Runs jobs until all that is left waits for something. What a job makes ready is a timer to set, and
setting it makes nothing ready. -/
def settle (service : Service) : Service := service.runReady.runReady

/-- The jobs whose time comes no later than this become ready. -/
def timeUp (service : Service) (time : Nat) : Service :=
  { service with
    ready := service.ready ++ (service.timed.takeWhile fun entry => entry.1 ≤ time).map Prod.snd
    timed := service.timed.dropWhile fun entry => entry.1 ≤ time }

/-- Lets time pass. What falls due by its end is done. -/
def advance (service : Service) (milliseconds : Nat) : Service :=
  let time := service.clock + milliseconds
  let service := service.settle.timeUp time
  settle { service with clock := time }

end Service

namespace Polling

/-- Milliseconds between two polls. -/
def interval : Nat := 5

/-- How often the condition is asked before the last time. -/
def attempts : Nat := 200

/-- How a wait ended: whether the condition held, after how many polls and milliseconds. -/
structure Outcome where
  held : Bool
  polls : Nat
  milliseconds : Nat
deriving DecidableEq, Repr

/-- Waits from the poll of this number on, with so many polls before the last one. The condition may depend
on the number of the poll. -/
def waitFrom (condition : Nat → Bool) : Nat → Nat → Outcome
  | 0, poll => ⟨condition poll, poll, (poll - 1) * interval⟩
  | left + 1, poll =>
    if condition poll then ⟨true, poll, (poll - 1) * interval⟩
    else waitFrom condition left (poll + 1)

def eventually (condition : Nat → Bool) : Outcome := waitFrom condition attempts 1

end Polling

end Wayfinding
