import Wayfinding.Text.Hex

namespace Wayfinding

structure Identity where
  bytes : List UInt8
  length_eq : bytes.length = 16
deriving DecidableEq

namespace Identity

open Text

def digits (id : Identity) : List Char := Hex.ofBytes id.bytes

/-- Hyphens behind the 8th, 12th, 16th and 20th of 32 digits. -/
def hyphenate (digits : List Char) : List Char :=
  digits.take 8 ++ ['-'] ++ (digits.drop 8).take 4 ++ ['-'] ++ (digits.drop 12).take 4 ++ ['-']
    ++ (digits.drop 16).take 4 ++ ['-'] ++ digits.drop 20

/-- The digits of a text with hyphens at the four places. -/
def unhyphenate? (text : List Char) : Option (List Char) :=
  if text.length = 36 ∧ text[8]? = some '-' ∧ text[13]? = some '-' ∧ text[18]? = some '-'
      ∧ text[23]? = some '-' then
    some (text.take 8 ++ (text.drop 9).take 4 ++ (text.drop 14).take 4 ++ (text.drop 19).take 4
      ++ text.drop 24)
  else none

def text (id : Identity) : String := String.ofList (hyphenate id.digits)

def plainText (id : Identity) : String := String.ofList id.digits

def ofBytes? (bytes : List UInt8) : Option Identity :=
  if h : bytes.length = 16 then some ⟨bytes, h⟩ else none

def ofDigits? (digits : List Char) : Option Identity := (Hex.bytes? digits).bind ofBytes?

/-- What stands inside braces or behind the mark of a resource name, which may be in either case; any other
text as it is. -/
def unwrap (text : List Char) : List Char :=
  if text.length = 38 ∧ text.head? = some '\x7b' ∧ text.getLast? = some '\x7d' then
    (text.drop 1).dropLast
  else if (text.take 9).map Char.toLower = "urn:uuid:".toList then text.drop 9
  else text

/-- Reads an identity: 32 digits, or digits with hyphens, which may be wrapped. -/
def parse? (text : String) : Option Identity :=
  if text.toList.length = 32 then ofDigits? text.toList
  else (unhyphenate? (unwrap text.toList)).bind ofDigits?

def le (a b : Identity) : Bool := decide (a.bytes ≤ b.bytes)

/-- Puts an identity into an ascending list, unless it is there. -/
def insertSorted (id : Identity) : List Identity → List Identity
  | [] => [id]
  | first :: rest =>
    if id = first then first :: rest
    else if id.le first then id :: first :: rest
    else first :: insertSorted id rest

def distinctSorted (ids : List Identity) : List Identity := ids.foldr insertSorted []

/-- The sixteen bytes of a number, the most significant first. -/
def bytesOf (n : Nat) : List UInt8 :=
  (List.range 16).map fun place => UInt8.ofNat (n >>> (8 * (15 - place)))

/-- An identity of the random kind: the bytes of a seed, but for the six bits that mark the kind. -/
def ofSeed (seed : Nat) : Identity :=
  ⟨((bytesOf seed).modify 6 fun byte => byte &&& 0x0F ||| 0x40).modify 8 fun byte => byte &&& 0x3F ||| 0x80,
    by simp [bytesOf]⟩

theorem length_digits (id : Identity) : id.digits.length = 32 := by
  rw [digits, Hex.length_ofBytes, id.length_eq]

theorem length_hyphenate {digits : List Char} (h : digits.length = 32) :
    (hyphenate digits).length = 36 := by
  simp [hyphenate, h]

theorem unhyphenate?_hyphenate {digits : List Char} (h : digits.length = 32) :
    unhyphenate? (hyphenate digits) = some digits := by
  have hparts : digits.take 8 ++ (digits.drop 8).take 4 ++ (digits.drop 12).take 4
      ++ (digits.drop 16).take 4 ++ digits.drop 20 = digits := by
    simp [← List.take_add]
  rw [unhyphenate?, if_pos]
  · rw [Option.some.injEq]
    simpa [hyphenate, List.take_append, List.drop_append, List.drop_take, h] using hparts
  · refine ⟨length_hyphenate h, ?_, ?_, ?_, ?_⟩
    all_goals simp [hyphenate, h]

theorem parse?_text (id : Identity) : parse? id.text = some id := by
  have hlength := length_hyphenate id.length_digits
  have hhyphen : (hyphenate id.digits)[8]? = some '-' := by simp [hyphenate, id.length_digits]
  have hplain : unwrap (hyphenate id.digits) = hyphenate id.digits := by
    rw [unwrap, if_neg (by omega), if_neg]
    intro hmark
    have := congrArg (·[8]?) hmark
    simp [hhyphen] at this
  have hbytes : ofDigits? id.digits = some id := by
    rw [ofDigits?, digits, Hex.bytes?_ofBytes, Option.bind_some, ofBytes?, dif_pos id.length_eq]
  rw [parse?, text, String.toList_ofList, if_neg (by omega), hplain,
    unhyphenate?_hyphenate id.length_digits, Option.bind_some, hbytes]

end Identity

end Wayfinding
