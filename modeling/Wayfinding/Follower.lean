import Wayfinding.Bus
import Wayfinding.Error

namespace Wayfinding

structure Reports where
  capacity : Nat
  /-- The errors that wait to be drained, the oldest first. -/
  waiting : List ProjectionError
  isRead : Bool
deriving DecidableEq

namespace Reports

def new (requested : Nat) : Reports := ⟨max requested 1, [], true⟩

/-- Puts an error into the channel, if there is a place for it. If nobody reads it, it vanishes. -/
def send? (reports : Reports) (error : ProjectionError) : Option Reports :=
  if ¬reports.isRead then some reports
  else if reports.waiting.length < reports.capacity then
    some { reports with waiting := reports.waiting ++ [error] }
  else none

def drain (reports : Reports) : List ProjectionError × Reports :=
  (reports.waiting, { reports with waiting := [] })

/-- Gives up reading the channel, with all that is in it. -/
def abandon (reports : Reports) : Reports := { reports with waiting := [], isRead := false }

end Reports

inductive Phase where
  | listening
  /-- Waits for a place for this error. -/
  | stalled (error : ProjectionError)
  | stopped
deriving DecidableEq

structure Follower where
  component : String
  subscription : Subscription
  reports : Reports
  phase : Phase
deriving DecidableEq

namespace Follower

def new (component : String) (subscription : Subscription) (errorBuffer : Nat) : Follower :=
  ⟨component, subscription, .new errorBuffer, .listening⟩

/-- The follower after it has an error to report, or none. -/
def report (follower : Follower) : Option ProjectionError → Follower
  | none => { follower with phase := .listening }
  | some error =>
    match follower.reports.send? error with
    | some reports => { follower with reports := reports, phase := .listening }
    | none => { follower with phase := .stalled error }

def stop (follower : Follower) : Follower := { follower with phase := .stopped }

/-- One step of a follower: it gets rid of the error that it waits with, or takes one envelope or notice
from the bus. There is no step when it has to wait for something. -/
def step? (handle : σ → Envelope → σ × Option ProjectionError) (bus : Bus) (state : σ)
    (follower : Follower) : Option (σ × Follower) :=
  match follower.phase with
  | .stopped => none
  | .stalled error =>
    (follower.reports.send? error).map fun reports =>
      (state, { follower with reports := reports, phase := .listening })
  | .listening =>
    let (arrival, subscription) := bus.receive follower.subscription
    let moved := { follower with subscription := subscription }
    match arrival with
    | .envelope envelope =>
      let (state, error) := handle state envelope
      some (state, moved.report error)
    | .lagged skipped => some (state, moved.report (some (.lagged follower.component skipped)))
    | .nothing => if subscription.next = follower.subscription.next then none else some (state, moved)
    | .closed => some (state, moved.stop)

/-- Takes steps until there is none, or the fuel is used. -/
def runFor (handle : σ → Envelope → σ × Option ProjectionError) (bus : Bus) :
    Nat → σ → Follower → σ × Follower
  | 0, state, follower => (state, follower)
  | fuel + 1, state, follower =>
    match step? handle bus state follower with
    | some (state, follower) => runFor handle bus fuel state follower
    | none => (state, follower)

/-- Takes steps until there is none. Each envelope that waits costs at most two steps, and there may be an
error to get rid of, a notice with its own wait and the stop. -/
def run (handle : σ → Envelope → σ × Option ProjectionError) (bus : Bus) (state : σ)
    (follower : Follower) : σ × Follower :=
  runFor handle bus (2 * bus.kept.length + 6) state follower

end Follower

end Wayfinding
