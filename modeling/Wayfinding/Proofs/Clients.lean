import Wayfinding.Bus
import Wayfinding.Proofs.Streams

namespace Wayfinding

/-- A navigation in the hands of a client, with its history: what it was when the client obtained it or saved
it last, and what the client has tried on it since. -/
structure Copy where
  base : Navigation
  intents : List Intent
  navigation : Navigation

namespace Copy

def obtained (nav : Navigation) : Copy := ⟨nav, [], nav⟩

def id (copy : Copy) : Identity := copy.navigation.id

def tried (copy : Copy) (intents : List Intent) : Copy :=
  { copy with intents := copy.intents ++ intents, navigation := copy.navigation.attemptAll intents }

end Copy

/-- A change for a scoped use: the intents that it tries on what it is given, and whether it then gives up. -/
structure Work where
  intents : Navigation → List Intent
  failure : Navigation → Option NavigationError

def Work.change (work : Work) (nav : Navigation) : Except NavigationError Navigation :=
  match work.failure nav with
  | some error => .error error
  | none => .ok (nav.attemptAll (work.intents nav))

inductive Action where
  /-- Takes a navigation that is not created yet. -/
  | new (client : Nat) (id : Identity)
  | fetch (client : Nat) (id : Identity)
  | try (client : Nat) (intent : Intent)
  | save (client : Nat) (now : Timestamp)
  /-- The first half of a scoped use: fetches and changes. -/
  | begin (client : Nat) (id : Identity) (work : Work)
  /-- The second half of a scoped use: saves, and holds on to the navigation only if that went well. -/
  | finish (client : Nat) (now : Timestamp)
  | delete (client : Nat)

def Action.deletes : Action → Bool
  | delete _ => true
  | _ => false

structure World where
  repository : Repository
  bus : Bus
  held : Table Nat Copy
  /-- The copies whose save went well, as they were just before, in the order of the saves. -/
  commits : List Copy

namespace World

def start (bus : Bus) : World := ⟨.empty, bus, .empty, []⟩

def hold (world : World) (client : Nat) (copy : Copy) : World :=
  { world with held := world.held.insert client copy }

def drop (world : World) (client : Nat) : World := { world with held := world.held.erase client }

/-- Stores what a client holds and publishes it. `refused` says what becomes of a copy that is refused. -/
def commit (world : World) (client : Nat) (now : Timestamp) (refused : World → Copy → World) : World :=
  match world.held.get? client with
  | none => world
  | some copy =>
    let saved := world.repository.save now copy.navigation
    let after := { world with
      repository := saved.repository
      bus := world.bus.publishAll saved.appended }
    match saved.outcome with
    | .ok () => { after.hold client (.obtained saved.navigation) with commits := world.commits ++ [copy] }
    | .error _ => refused after { copy with navigation := saved.navigation }

def step (world : World) : Action → World
  | .new client id => world.hold client (.obtained (.new id))
  | .fetch client id =>
    match world.repository.fetch id with
    | .ok nav => world.hold client (.obtained nav)
    | .error _ => world
  | .try client intent =>
    match world.held.get? client with
    | some copy => world.hold client (copy.tried [intent])
    | none => world
  | .save client now => world.commit client now fun world copy => world.hold client copy
  | .begin client id work =>
    match world.repository.fetch id with
    | .ok nav =>
      match work.failure nav with
      | none => world.hold client ((Copy.obtained nav).tried (work.intents nav))
      | some _ => world.drop client
    | .error _ => world.drop client
  | .finish client now => world.commit client now fun world _ => world.drop client
  | .delete client =>
    match world.held.get? client with
    | some copy =>
      match world.repository.delete copy.navigation with
      | .ok repository => { world with repository := repository }
      | .error _ => world
    | none => world

def run (bus : Bus) (actions : List Action) : World := actions.foldl step (start bus)

theorem held_hold (world : World) (client : Nat) (copy : Copy) :
    (world.hold client copy).held.get? client = some copy := Table.get?_insert_self _ _ _

theorem commit_repository {world : World} {client : Nat} {copy : Copy} (now : Timestamp)
    {refused : World → Copy → World} (hr : ∀ world copy, (refused world copy).repository = world.repository)
    (h : world.held.get? client = some copy) :
    (world.commit client now refused).repository =
      (world.repository.save now copy.navigation).repository := by
  simp only [commit, h]
  split
  · rfl
  · rw [hr]

/-- A scoped use that nothing comes between is what the repository does in one go. -/
theorem begin_finish (world : World) (client : Nat) (id : Identity) (work : Work) (now : Timestamp) :
    ((world.step (.begin client id work)).step (.finish client now)).repository =
      (world.repository.use now id work.change).repository := by
  have hdropped : ((world.drop client).step (.finish client now)).repository = world.repository := by
    simp [step, commit, drop, Table.get?_erase_self]
  unfold Repository.use
  cases hf : world.repository.fetch id with
  | error error =>
    simp only [step, hf] at hdropped ⊢
    exact hdropped
  | ok nav =>
    cases hw : work.failure nav with
    | some error =>
      simp only [step, hf, hw, Work.change, Except.bind] at hdropped ⊢
      exact hdropped
    | none =>
      simp only [step, hf, hw, Work.change, Except.bind]
      have hheld := held_hold world client ((Copy.obtained nav).tried (work.intents nav))
      refine commit_repository now ?_ hheld
      intro _ _
      rfl

end World

end Wayfinding
