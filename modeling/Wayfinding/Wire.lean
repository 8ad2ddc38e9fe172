namespace Wayfinding.Wire

/-- Why bytes can not be read. -/
inductive Fault where
  | endOfInput
  | endlessNumber
  | badFlag
  | badChoice
  | badText
  | badValue
deriving DecidableEq, Repr

def Fault.message : Fault → String
  | endOfInput => "Hit the end of buffer, expected more data"
  | endlessNumber => "Found a varint that didn't terminate. Is the usize too big for this platform?"
  | badFlag => "Found a bool that wasn't 0 or 1"
  | badChoice => "Found an Option discriminant that wasn't 0 or 1"
  | badText => "Tried to parse invalid utf-8"
  | badValue => "Serde Deserialization Error"

/-- Reads a value from the front of some bytes. -/
abbrev Reader (α : Type) := List UInt8 → Except Fault (α × List UInt8)

/-- A number, seven bits to a byte; all bytes but the last have their high bit set. -/
def writeNumber (n : Nat) : List UInt8 :=
  if n < 128 then [UInt8.ofNat n] else UInt8.ofNat (n % 128 + 128) :: writeNumber (n / 128)
termination_by n
decreasing_by omega

/-- Reads a number of at most so many bytes; when all are used, the last is at most `last`. -/
def readNumber (last : Nat) : Nat → Reader Nat
  | 0, _ => .error .endlessNumber
  | _ + 1, [] => .error .endOfInput
  | places + 1, byte :: rest =>
    if byte.toNat < 128 then
      if places = 0 ∧ last < byte.toNat then .error .endlessNumber else .ok (byte.toNat, rest)
    else
      match readNumber last places rest with
      | .ok (high, rest) => .ok (byte.toNat - 128 + 128 * high, rest)
      | .error fault => .error fault

def readWord : Reader Nat := readNumber 1 10

def readShortWord : Reader Nat := readNumber 15 5

def readBytes (count : Nat) : Reader (List UInt8) := fun bytes =>
  if bytes.length < count then .error .endOfInput else .ok (bytes.take count, bytes.drop count)

def textBytes (text : String) : List UInt8 := text.toUTF8.data.toList

def ofTextBytes? (bytes : List UInt8) : Option String := String.fromUTF8? ⟨bytes.toArray⟩

def writeText (text : String) : List UInt8 := writeNumber (textBytes text).length ++ textBytes text

def readText : Reader String := fun bytes => do
  let (count, bytes) ← readWord bytes
  let (content, bytes) ← readBytes count bytes
  match ofTextBytes? content with
  | some text => .ok (text, bytes)
  | none => .error .badText

def writeFlag (flag : Bool) : List UInt8 := [if flag then 1 else 0]

/-- Reads one byte that is 0 or 1. -/
def readBit (fault : Fault) : Reader Bool
  | [] => .error .endOfInput
  | byte :: rest =>
    if byte = 0 then .ok (false, rest) else if byte = 1 then .ok (true, rest) else .error fault

def readFlag : Reader Bool := readBit .badFlag

def readMany (read : Reader α) : Nat → Reader (List α)
  | 0, bytes => .ok ([], bytes)
  | count + 1, bytes => do
    let (value, bytes) ← read bytes
    let (values, bytes) ← readMany read count bytes
    return (value :: values, bytes)

def writeList (write : α → List UInt8) (values : List α) : List UInt8 :=
  writeNumber values.length ++ values.flatMap write

def readList (read : Reader α) : Reader (List α) := fun bytes => do
  let (count, bytes) ← readWord bytes
  readMany read count bytes

def readPair (first : Reader α) (second : Reader β) : Reader (α × β) := fun bytes => do
  let (a, bytes) ← first bytes
  let (b, bytes) ← second bytes
  return ((a, b), bytes)

end Wayfinding.Wire
