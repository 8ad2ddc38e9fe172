import Wayfinding.Json

namespace Wayfinding.Json

/-- How many arrays and objects may lie in each other on the way to anything that is looked at. -/
def nestingLimit : Nat := 127

/-- The values of the named fields of an object, or of an array in their order. Each may be missing, but none may
occur twice. -/
def fields? (names : List String) : Json → Option (List (Option Json))
  | .object members =>
    if (∀ entry ∈ members, entry.1.isSome)
        ∧ ∀ name ∈ names, (members.filter fun entry => entry.1 = some name).length ≤ 1 then
      some (names.map fun name => members.lookup (some name))
    else none
  | .array values =>
    if values.length ≤ names.length then
      some (values.map some ++ List.replicate (names.length - values.length) none)
    else none
  | _ => none

def text? : Json → Option String
  | .string text => text
  | _ => none

def bool? : Json → Option Bool
  | .bool value => some value
  | _ => none

/-- The number of a value that is written with digits only and fits 64 bits. -/
def word? : Json → Option Nat
  | .number ⟨false, whole, [], none⟩ => if whole < wordLimit then some whole else none
  | _ => none

/-- The name of a choice without data: a text, or an object with the name as its only key and no value. A
value that was held back may have an empty object in the place of none. -/
def choice? (held : Bool) (budget : Nat) : Json → Option String
  | .string name => name
  | .object [(key, value)] =>
    match value with
    | .null => if budget = 0 then none else key
    | .object [] => if budget = 0 ∨ ¬held then none else key
    | _ => none
  | _ => none

/-- The elements of an array, each read with the budget that is left inside it. -/
def list? (read : Nat → Json → Option α) : Nat → Json → Option (List α)
  | budget + 1, .array values => values.mapM (read budget)
  | _, _ => none

def texts? : Nat → Json → Option (List String) := list? fun _ => text?

mutual

/-- All of a value can be held back: it keeps to the budget, its texts are characters and its numbers are
not too great. -/
def canHold : Nat → Json → Bool
  | _, .null => true
  | _, .bool _ => true
  | _, .number value => value.isFinite
  | _, .string text => text.isSome
  | 0, .array _ => false
  | budget + 1, .array values => canHoldAll budget values
  | 0, .object _ => false
  | budget + 1, .object members => canHoldMembers budget members

def canHoldAll : Nat → List Json → Bool
  | _, [] => true
  | budget, value :: rest => canHold budget value && canHoldAll budget rest

def canHoldMember : Nat → Option String × Json → Bool
  | budget, (key, value) => key.isSome && canHold budget value

def canHoldMembers : Nat → List (Option String × Json) → Bool
  | _, [] => true
  | budget, entry :: rest => canHoldMember budget entry && canHoldMembers budget rest

end

end Wayfinding.Json
