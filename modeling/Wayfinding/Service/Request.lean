import Wayfinding.Service

namespace Wayfinding.Service

def create (service : Service) (fresh : Identity) (creation : Creation) :
    Except Failure Identity × Service :=
  let handled := creation.handle service.lookup service.repository service.now fresh
  (handled.outcome, service.adopt handled.repository handled.appended)

/-- Saves a navigation, and gives it back as it is afterwards. -/
def save (service : Service) (nav : Navigation) : Except NavigationError Unit × Navigation × Service :=
  let saved := service.repository.save service.now nav
  (saved.outcome, saved.navigation, service.adopt saved.repository saved.appended)

def delete (service : Service) (nav : Navigation) : Except NavigationError Unit × Service :=
  match service.repository.delete nav with
  | .ok repository => (.ok (), { service with repository := repository })
  | .error error => (.error error, service)

/-- Changes a stored navigation and saves it, unless the change fails. -/
def use (service : Service) (id : Identity)
    (change : Navigation → Except NavigationError Navigation) :
    Except NavigationError Navigation × Service :=
  let used := service.repository.use service.now id change
  (used.outcome, service.adopt used.repository used.appended)

/-- Begins a fetch through the cache behind the requests. -/
def spawnFetch (service : Service) (id : Identity) : Nat × Service :=
  let ticket := service.nextTicket
  let service := { service with
    nextTicket := ticket + 1
    ready := service.ready ++ [Job.beginFetch ticket id] }
  (ticket, service.settle)

def outcome? (service : Service) (ticket : Nat) : Option (Except Failure Navigation) :=
  service.fetched.lookup ticket

/-- Fetches through the cache and waits for the answer. While it waits, jobs run and time passes; jobs of
the moment in which the answer comes run after it. -/
def fetch (service : Service) (id : Identity) : Except Failure Navigation × Service :=
  match service.cache.read id with
  | (.hit nav, cache) => (.ok nav, { service with cache := cache })
  | (.miss load, cache) =>
    let service := { service with cache := cache, fetches := service.fetches + 1 }
    let answer := service.repository.fetch id
    let service :=
      if service.fetchDelay = 0 then service
      else
        let time := service.endOfWait service.fetchDelay
        let service := ((service.settle.timeUp (time - 1)).settle).timeUp time
        { service with clock := time }
    let (outcome, cache) := service.cache.complete load answer
    (outcome, { service with cache := cache })

def invalidate (service : Service) (id : Identity) : Service :=
  { service with
    cache := service.cache.invalidate id
    ready := service.ready ++ [.setTimer id service.cache.generation] }

def shutdown (service : Service) : Service := { service with cache := service.cache.shutdown }

def subscribe (service : Service) (filter : EventFilter) : Subscription × Service :=
  let (subscription, bus) := service.bus.subscribe filter
  (subscription, { service with bus := bus })

def unsubscribe (service : Service) : Service := { service with bus := service.bus.unsubscribe }

/-- Settles and receives what a subscription finds on the bus. -/
def receive (service : Service) (subscription : Subscription) : Arrival × Subscription × Service :=
  let service := service.settle
  let (arrival, subscription) := service.bus.receive subscription
  (arrival, subscription, service)

/-- Gives up the bus. It stays open if the repository publishes. -/
def dropBus (service : Service) : Service :=
  if service.publishes then service.settle
  else
    let service := { service with bus := service.bus.close }
    service.wakeListeners.settle

inductive Component where
  | lookup
  | cache
deriving DecidableEq

def follower? (service : Service) : Component → Option Follower
  | .lookup => service.lookupFollower
  | .cache => service.cacheFollower

def setFollower (service : Service) (follower : Follower) : Component → Service
  | .lookup => { service with lookupFollower := some follower }
  | .cache => { service with cacheFollower := some follower }

def wake (service : Service) (component : Component) : Service :=
  { service with
    ready := service.ready ++ [match component with | .lookup => .followNames | .cache => .followEvents] }

/-- Starts a component, which can be done once. -/
def start (service : Service) (component : Component) : Except NavigationError Unit × Service :=
  let (name, filter, buffer) := match component with
    | .lookup => (Lookup.component, Lookup.filter, service.lookupBuffer)
    | .cache => (Cache.component, EventFilter.all, service.settings.errorBuffer)
  match service.follower? component with
  | some _ => (.error (.alreadyStarted name), service)
  | none =>
    let (subscription, bus) := service.bus.subscribe filter
    let service := { service with bus := bus }
    (.ok (), (service.setFollower (.new name subscription buffer) component).wake component)

/-- Stops a component for good. The cache gives up its timers. -/
def cancel (service : Service) (component : Component) : Service :=
  let service := service.settle
  match service.follower? component with
  | none => service
  | some follower =>
    if follower.phase = .stopped then service
    else
      let service := service.unsubscribe.setFollower follower.stop component
      match component with
      | .lookup => service
      | .cache => service.shutdown

/-- Takes the errors of a component, and tells whether there can be no more. -/
def drain (service : Service) (component : Component) : List ProjectionError × Bool × Service :=
  match service.follower? component with
  | none => ([], true, service)
  | some follower =>
    let (errors, reports) := follower.reports.drain
    let service := service.setFollower { follower with reports := reports } component
    match follower.phase with
    | .listening => (errors, false, service)
    | .stalled _ => (errors, false, service.wake component)
    | .stopped => (errors, true, service)

/-- Gives up reading the errors of a component, and tells whether they were read. -/
def dropErrors (service : Service) (component : Component) : Bool × Service :=
  match service.follower? component with
  | none => (false, service)
  | some follower =>
    if ¬follower.reports.isRead then (false, service)
    else
      let service := service.setFollower { follower with reports := follower.reports.abandon } component
      match follower.phase with
      | .stalled _ => (true, service.wake component)
      | _ => (true, service)

/-- Takes a list of envelopes into account in the name index. -/
def catchUp (service : Service) (envelopes : List Envelope) : List ProjectionError × Service :=
  let (lookup, errors) := service.lookup.catchUp envelopes
  (errors, { service with lookup := lookup })

end Wayfinding.Service
