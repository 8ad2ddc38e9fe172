import Wayfinding.Identity
import Wayfinding.Text.Quoted

namespace Wayfinding

open Text

inductive NavigationError where
  | emptyName
  | alreadyCreated (id : Identity)
  /-- A removal named an item of the creation. -/
  | initialItem (path : String)
  | itemNotFound (path : String)
  /-- A sibling has this ID. -/
  | duplicateItem (id : String)
  | invalidArgument (reason : String)
  /-- Nothing is stored under this identity. -/
  | notFound (id : Identity)
  /-- The name index knows another navigation of this name. -/
  | nameTaken (name : String)
  /-- The stored stream is not the one the change was based on. -/
  | concurrencyConflict (id : Identity) (expected actual : Nat)
  | alreadyStarted (component : String)
  | encoding (reason : String)
deriving DecidableEq

namespace NavigationError

def message : NavigationError → String
  | emptyName => "name must not be empty"
  | alreadyCreated id => "navigation " ++ id.text ++ " is already created"
  | initialItem path => "item " ++ quoted path ++ " is an initial item and cannot be removed"
  | itemNotFound path => "item " ++ quoted path ++ " not found"
  | duplicateItem id => "duplicate item " ++ quoted id
  | invalidArgument reason => "invalid argument: " ++ reason
  | notFound id => "navigation " ++ id.text ++ " not found"
  | nameTaken name => "navigation name " ++ quoted name ++ " is already taken"
  | concurrencyConflict id expected actual =>
    "concurrency conflict on " ++ id.text ++ ": expected version " ++ toString expected ++ ", found "
      ++ toString actual
  | alreadyStarted component => component ++ " is already started"
  | encoding reason => "encoding failed: " ++ reason

def negativeIndex (index : Int) : NavigationError :=
  invalidArgument ("negative index " ++ toString index)

def invalidId (id : String) : NavigationError :=
  invalidArgument ("invalid item id " ++ quoted id)

/-- Raised by a navigation before it recorded anything. -/
def isValidation : NavigationError → Bool
  | emptyName | alreadyCreated _ | initialItem _ | itemNotFound _ | duplicateItem _
  | invalidArgument _ => true
  | _ => false

def isNotFound : NavigationError → Bool
  | notFound _ => true
  | _ => false

end NavigationError

/-- A cause together with the contexts it was reported through, the outermost first. -/
structure Failure where
  contexts : List String
  cause : NavigationError
deriving DecidableEq

namespace Failure

def ofCause (cause : NavigationError) : Failure := ⟨[], cause⟩

def within (failure : Failure) (context : String) : Failure :=
  { failure with contexts := context :: failure.contexts }

def chain (failure : Failure) : List String := failure.contexts ++ [failure.cause.message]

def message (failure : Failure) : String := failure.contexts.headD failure.cause.message

def isNotFound (failure : Failure) : Bool := failure.cause.isNotFound

end Failure

/-- What a component reports while it follows the bus. It goes on afterwards. -/
inductive ProjectionError where
  /-- The component fell behind and lost this many envelopes. -/
  | lagged (component : String) (skipped : Nat)
  /-- A second navigation was created under a name; the first one keeps it. -/
  | duplicateName (name : String) (existing duplicate : Identity)
deriving DecidableEq

def ProjectionError.message : ProjectionError → String
  | lagged component skipped =>
    component ++ " lagged behind the event bus, " ++ toString skipped ++ " events skipped"
  | duplicateName name existing duplicate =>
    "name " ++ quoted name ++ " already maps to " ++ existing.text ++ ", ignoring " ++ duplicate.text

end Wayfinding
