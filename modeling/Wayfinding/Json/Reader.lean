import Wayfinding.Json
import Wayfinding.Json.Escape

namespace Wayfinding.Json

/-- The four characters that may stand between the parts of a text. -/
def isSpace (c : Char) : Bool := c = ' ' ∨ c = '\t' ∨ c = '\r' ∨ c = '\n'

def skipSpace (text : List Char) : List Char := text.dropWhile isSpace

def digit? (c : Char) : Option (Fin 10) :=
  if h : '0'.toNat ≤ c.toNat ∧ c.toNat ≤ '9'.toNat then
    some ⟨c.toNat - '0'.toNat, by have := h.2; simp at this ⊢; omega⟩
  else none

def readDigits : List Char → List (Fin 10) × List Char
  | [] => ([], [])
  | c :: rest =>
    match digit? c with
    | some digit => let (digits, rest) := readDigits rest; (digit :: digits, rest)
    | none => ([], c :: rest)

def valueOf (digits : List (Fin 10)) : Nat := digits.foldl (fun n digit => 10 * n + digit.val) 0

/-- Reads a whole number, which has no zero before other digits. -/
def readWhole (text : List Char) : Option (Nat × List Char) :=
  match readDigits text with
  | ([], _) => none
  | ([digit], rest) => some (digit.val, rest)
  | (digits, rest) => if digits.head? = some 0 then none else some (valueOf digits, rest)

def readFraction : List Char → Option (List (Fin 10) × List Char)
  | '.' :: rest =>
    match readDigits rest with
    | ([], _) => none
    | (digits, rest) => some (digits, rest)
  | text => some ([], text)

def readPower (negative : Bool) (text : List Char) : Option (Option Int × List Char) :=
  match readDigits text with
  | ([], _) => none
  | (digits, rest) =>
    let power : Int := valueOf digits
    some (some (if negative then -power else power), rest)

def readExponent : List Char → Option (Option Int × List Char)
  | [] => some (none, [])
  | c :: rest =>
    if c = 'e' ∨ c = 'E' then
      match rest with
      | '-' :: rest => readPower true rest
      | '+' :: rest => readPower false rest
      | rest => readPower false rest
    else some (none, c :: rest)

def readUnsigned (negative : Bool) (text : List Char) : Option (Number × List Char) := do
  let (whole, text) ← readWhole text
  let (fraction, text) ← readFraction text
  let (exponent, text) ← readExponent text
  return (⟨negative, whole, fraction, exponent⟩, text)

def readNumber : List Char → Option (Number × List Char)
  | '-' :: rest => readUnsigned true rest
  | text => readUnsigned false text

mutual

/-- Reads a value, which may have blanks before it. The fuel bounds the number of nested calls. -/
def readValue : Nat → List Char → Option (Json × List Char)
  | 0, _ => none
  | fuel + 1, text =>
    match skipSpace text with
    | [] => none
    | c :: rest =>
      if c = '"' then (readText rest).map fun (text, rest) => (.string text, rest)
      else if c = '[' then
        match skipSpace rest with
        | ']' :: rest => some (.array [], rest)
        | rest => (readElements fuel rest).map fun (values, rest) => (.array values, rest)
      else if c = '\x7b' then
        match skipSpace rest with
        | '\x7d' :: rest => some (.object [], rest)
        | rest => (readMembers fuel rest).map fun (members, rest) => (.object members, rest)
      else if c = 'n' then
        match rest with
        | 'u' :: 'l' :: 'l' :: rest => some (.null, rest)
        | _ => none
      else if c = 't' then
        match rest with
        | 'r' :: 'u' :: 'e' :: rest => some (.bool true, rest)
        | _ => none
      else if c = 'f' then
        match rest with
        | 'a' :: 'l' :: 's' :: 'e' :: rest => some (.bool false, rest)
        | _ => none
      else (readNumber (c :: rest)).map fun (value, rest) => (.number value, rest)

/-- Reads the elements of an array, of which there is one more, up to its end. -/
def readElements : Nat → List Char → Option (List Json × List Char)
  | 0, _ => none
  | fuel + 1, text =>
    match readValue fuel text with
    | none => none
    | some (value, rest) =>
      match skipSpace rest with
      | ',' :: rest => (readElements fuel rest).map fun (values, rest) => (value :: values, rest)
      | ']' :: rest => some ([value], rest)
      | _ => none

/-- Reads the members of an object, of which there is one more, up to its end. -/
def readMembers : Nat → List Char → Option (List (Option String × Json) × List Char)
  | 0, _ => none
  | fuel + 1, text =>
    match skipSpace text with
    | '"' :: rest =>
      match readText rest with
      | none => none
      | some (key, rest) =>
        match skipSpace rest with
        | ':' :: rest =>
          match readValue fuel rest with
          | none => none
          | some (value, rest) =>
            match skipSpace rest with
            | ',' :: rest =>
              (readMembers fuel rest).map fun (members, rest) => ((key, value) :: members, rest)
            | '\x7d' :: rest => some ([(key, value)], rest)
            | _ => none
        | _ => none
    | _ => none

end

/-- Reads a text that is one value with nothing but blanks around it. -/
def parse? (text : String) : Option Json :=
  match readValue (2 * text.toList.length + 2) text.toList with
  | some (value, rest) => if (skipSpace rest).isEmpty then some value else none
  | none => none

end Wayfinding.Json
