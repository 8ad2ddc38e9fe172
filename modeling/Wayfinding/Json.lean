namespace Wayfinding

/-- The numbers that 64 bits can hold are below this one. -/
def wordLimit : Nat := Nat.pow 2 64

structure Json.Number where
  negative : Bool
  whole : Nat
  /-- The digits behind the point; without digits there is no point. -/
  fraction : List (Fin 10)
  exponent : Option Int
deriving DecidableEq

namespace Json

/-- A whole number rounded to 53 binary digits; what lies halfway goes to the even side. -/
def roundBits (n : Nat) : Nat :=
  let unit := 1 <<< (n.log2 - 52)
  let below := n / unit
  let rest := 2 * (n % unit)
  if rest > unit ∨ rest = unit ∧ below % 2 = 1 then (below + 1) * unit else below * unit

namespace Number

/-- A whole number without so many of its last digits that it fits 64 bits, and how many these are. -/
def cutWhole (n : Nat) : Nat × Nat :=
  if n < wordLimit then (n, 0)
  else
    let (front, places) := cutWhole (n / 10)
    (front, places + 1)
termination_by n
decreasing_by simp [wordLimit] at *; omega

/-- Takes digits behind the point into a significand as long as it fits 64 bits. -/
def takeDigits (significand : Nat) (scale : Int) : List (Fin 10) → Nat × Int
  | [] => (significand, scale)
  | digit :: rest =>
    if 10 * significand + digit.val < wordLimit then
      takeDigits (10 * significand + digit.val) (scale - 1) rest
    else (significand, scale)

/-- The digits that are kept of a number, and the power of ten that goes with them. A digit that is not kept
counts as a place. -/
def significant (number : Number) : Nat × Int :=
  let (front, places) := cutWhole number.whole
  let (significand, scale) := takeDigits front places number.fraction
  (significand, scale + number.exponent.getD 0)

/-- The number does not overflow as a double. Its digits and its power of ten are each rounded before they
are multiplied; the product overflows from half a unit in the last place beyond the greatest double on. -/
def isFinite (number : Number) : Bool :=
  let (significand, scale) := number.significant
  significand = 0 ∨ scale < 0 ∨ scale ≤ 308
    ∧ roundBits significand * roundBits (Nat.pow 10 scale.toNat) < Nat.pow 2 1024 - Nat.pow 2 970

end Number

end Json

inductive Json where
  | null
  | bool (value : Bool)
  | number (value : Json.Number)
  /-- Without a value the escapes in the text are no characters. -/
  | string (value : Option String)
  | array (values : List Json)
  /-- The members in their order; a key may occur more than once. -/
  | object (members : List (Option String × Json))

namespace Json

def ofNat (n : Nat) : Json := number ⟨false, n, [], none⟩

def ofString (text : String) : Json := string (some text)

def ofMembers (members : List (String × Json)) : Json :=
  object (members.map fun (key, value) => (some key, value))

end Json

end Wayfinding
