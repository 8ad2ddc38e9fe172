import Wayfinding.Text.Hex

namespace Wayfinding.Json

open Text

/-- The letter that stands for a character behind a backslash when it is written. -/
def letterOf? : Char → Option Char
  | '"' => some '"'
  | '\\' => some '\\'
  | '\x08' => some 'b'
  | '\x0c' => some 'f'
  | '\n' => some 'n'
  | '\r' => some 'r'
  | '\t' => some 't'
  | _ => none

/-- The character that a letter behind a backslash stands for when it is read. -/
def ofLetter? : Char → Option Char
  | '"' => some '"'
  | '\\' => some '\\'
  | '/' => some '/'
  | 'b' => some '\x08'
  | 'f' => some '\x0c'
  | 'n' => some '\n'
  | 'r' => some '\r'
  | 't' => some '\t'
  | _ => none

/-- The written form of one character: by its letter, by its code point if it is a control, or raw. -/
def writeChar (c : Char) : List Char :=
  match letterOf? c with
  | some letter => ['\\', letter]
  | none =>
    if c.toNat < 0x20 then ['\\', 'u', '0', '0'] ++ Hex.ofByte (UInt8.ofNat c.toNat) else [c]

def writeText (text : String) : List Char :=
  ['"'] ++ text.toList.flatMap writeChar ++ ['"']

/-- A piece of a text as it is read: a character, or a half of one, which needs the other half. -/
inductive Piece where
  | char (c : Char)
  | half (code : Nat)
deriving DecidableEq

/-- The piece with a code of four hexadecimal digits. -/
def Piece.ofCode (code : Nat) : Piece :=
  if 0xD800 ≤ code ∧ code < 0xE000 then half code else char (Char.ofNat code)

/-- The characters that the pieces make up, unless a half stands alone. -/
def assemble? : List Piece → Option (List Char)
  | [] => some []
  | .char c :: rest => (assemble? rest).map (c :: ·)
  | .half high :: .half low :: rest =>
    if high < 0xDC00 ∧ 0xDC00 ≤ low then
      (assemble? rest).map (Char.ofNat (0x10000 + (high - 0xD800) * 0x400 + (low - 0xDC00)) :: ·)
    else none
  | .half _ :: _ => none

/-- Reads the pieces of a text up to its closing quote, and the rest behind it. -/
def readPieces : List Char → Option (List Piece × List Char)
  | [] => none
  | c :: rest =>
    if c = '"' then some ([], rest)
    else if c = '\\' then
      match rest with
      | 'u' :: a :: b :: c :: d :: rest =>
        match Hex.number? [a, b, c, d], readPieces rest with
        | some code, some (pieces, rest) => some (.ofCode code :: pieces, rest)
        | _, _ => none
      | letter :: rest =>
        match ofLetter? letter, readPieces rest with
        | some c, some (pieces, rest) => some (.char c :: pieces, rest)
        | _, _ => none
      | [] => none
    else if c.toNat < 0x20 then none
    else (readPieces rest).map fun (pieces, rest) => (.char c :: pieces, rest)

/-- Reads a text behind its opening quote. A text with a half that stands alone is no characters. -/
def readText (text : List Char) : Option (Option String × List Char) :=
  (readPieces text).map fun (pieces, rest) => ((assemble? pieces).map String.ofList, rest)

end Wayfinding.Json
