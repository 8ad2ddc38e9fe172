import Wayfinding.Json
import Wayfinding.Json.Escape

namespace Wayfinding.Json

def digitChar (digit : Fin 10) : Char := Char.ofNat ('0'.toNat + digit.val)

def writeNumber (number : Number) : List Char :=
  (if number.negative then ['-'] else []) ++ Nat.toDigits 10 number.whole
    ++ (if number.fraction.isEmpty then [] else '.' :: number.fraction.map digitChar)
    ++ (match number.exponent with
      | none => []
      | some (.ofNat e) => 'e' :: Nat.toDigits 10 e
      | some (.negSucc e) => 'e' :: '-' :: Nat.toDigits 10 (e + 1))

/-- A text between quotes. What is no characters is written as a half that stands alone. -/
def writeString : Option String → List Char
  | some text => writeText text
  | none => ['"', '\\', 'u', 'd', '8', '0', '0', '"']

mutual

def write : Json → List Char
  | null => ['n', 'u', 'l', 'l']
  | bool true => ['t', 'r', 'u', 'e']
  | bool false => ['f', 'a', 'l', 's', 'e']
  | number value => writeNumber value
  | string value => writeString value
  | array [] => ['[', ']']
  | array (value :: rest) => '[' :: (write value ++ writeElements rest)
  | object [] => ['\x7b', '\x7d']
  | object (entry :: rest) => '\x7b' :: (writeMember entry ++ writeMembers rest)

/-- The elements of an array behind its first, and the end of the array. -/
def writeElements : List Json → List Char
  | [] => [']']
  | value :: rest => ',' :: (write value ++ writeElements rest)

def writeMember : Option String × Json → List Char
  | (key, value) => writeString key ++ ':' :: write value

/-- The members of an object behind its first, and the end of the object. -/
def writeMembers : List (Option String × Json) → List Char
  | [] => ['\x7d']
  | entry :: rest => ',' :: (writeMember entry ++ writeMembers rest)

end

def text (value : Json) : String := String.ofList value.write

end Wayfinding.Json
