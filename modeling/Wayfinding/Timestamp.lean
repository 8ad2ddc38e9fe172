import Wayfinding.Text.Blank

namespace Wayfinding

/-- A point in time: seconds since the start of 1970 in universal time and nanoseconds within the second.
A leap second counts as a second billion of nanoseconds of the second before it. -/
structure Timestamp where
  seconds : Int
  nanoseconds : Nat
deriving DecidableEq, Repr

structure CalendarDay where
  year : Int
  month : Nat
  day : Nat
deriving DecidableEq, Repr

namespace CalendarDay

def isLeap (year : Int) : Bool := year % 4 = 0 ∧ (year % 100 ≠ 0 ∨ year % 400 = 0)

def daysInMonth (year : Int) (month : Nat) : Nat :=
  if month = 2 then (if isLeap year then 29 else 28)
  else if month = 4 ∨ month = 6 ∨ month = 9 ∨ month = 11 then 30
  else 31

def isValid (date : CalendarDay) : Bool :=
  1 ≤ date.month ∧ date.month ≤ 12 ∧ 1 ≤ date.day ∧ date.day ≤ daysInMonth date.year date.month

/-- Days from the first of March of year zero to the first of March of a year. -/
def marchDay (year : Int) : Int := 365 * year + year / 4 - year / 100 + year / 400

/-- Days since the start of 1970. Years are taken to begin in March, so that the leap day comes last. -/
def number (date : CalendarDay) : Int :=
  let year := if date.month ≤ 2 then date.year - 1 else date.year
  let month := (date.month + 9) % 12
  marchDay year + (153 * month + 2) / 5 + date.day - 1 - 719468

def ofNumber (number : Int) : CalendarDay :=
  let days := number + 719468
  let era := days / 146097
  let dayOfEra := (days % 146097).toNat
  let yearOfEra := (dayOfEra - dayOfEra / 1460 + dayOfEra / 36524 - dayOfEra / 146096) / 365
  let dayOfYear := dayOfEra - (365 * yearOfEra + yearOfEra / 4 - yearOfEra / 100)
  let monthFromMarch := (5 * dayOfYear + 2) / 153
  let month := if monthFromMarch < 10 then monthFromMarch + 3 else monthFromMarch - 9
  let year := era * 400 + yearOfEra
  ⟨if month ≤ 2 then year + 1 else year, month, dayOfYear - (153 * monthFromMarch + 2) / 5 + 1⟩

end CalendarDay

namespace Timestamp

open Text

def ofMilliseconds (milliseconds : Nat) : Timestamp :=
  ⟨milliseconds / 1000, milliseconds % 1000 * 1000000⟩

/-- The years that a point in time can lie in. -/
def inYears (year : Int) : Bool := -262143 ≤ year ∧ year ≤ 262142

/-- The digits of a number, filled up with zeros on the left. -/
def padded (width n : Nat) : String :=
  let digits := Nat.toDigits 10 n
  String.ofList (List.replicate (width - digits.length) '0' ++ digits)

/-- Years from 0 to 9999 have four digits, others a sign and at least four. -/
def yearText (year : Int) : String :=
  if 0 ≤ year ∧ year ≤ 9999 then padded 4 year.toNat
  else (if year < 0 then "-" else "+") ++ padded 4 year.natAbs

/-- The fraction of a second with as few groups of three digits as are exact. -/
def fractionText (nanoseconds : Nat) : String :=
  if nanoseconds = 0 then ""
  else if nanoseconds % 1000000 = 0 then "." ++ padded 3 (nanoseconds / 1000000)
  else if nanoseconds % 1000 = 0 then "." ++ padded 6 (nanoseconds / 1000)
  else "." ++ padded 9 nanoseconds

def text (time : Timestamp) : String :=
  let date := CalendarDay.ofNumber (time.seconds / 86400)
  let second := (time.seconds % 86400).toNat
  let leap := time.nanoseconds / 1000000000
  yearText date.year ++ "-" ++ padded 2 date.month ++ "-" ++ padded 2 date.day ++ "T"
    ++ padded 2 (second / 3600) ++ ":" ++ padded 2 (second / 60 % 60) ++ ":"
    ++ padded 2 (second % 60 + leap) ++ fractionText (time.nanoseconds % 1000000000) ++ "Z"

/-- A piece read from the front of a text, and the rest. -/
abbrev Reader (α : Type) := List Char → Option (α × List Char)

def skipBlanks (text : List Char) : List Char := text.dropWhile isBlank

/-- Up to `most` digits, at least one, after any blanks. -/
def digits (most : Nat) : Reader (List Char) := fun text =>
  let text := skipBlanks text
  let digits := (text.take most).takeWhile Char.isDigit
  if digits.isEmpty then none else some (digits, text.drop digits.length)

def valueOf (digits : List Char) : Nat :=
  digits.foldl (fun n c => 10 * n + (c.toNat - '0'.toNat)) 0

def number (most : Nat) : Reader Nat := fun text =>
  (digits most text).map fun (digits, rest) => (valueOf digits, rest)

/-- A year: four digits at most, or a sign and any number of digits. -/
def year : Reader Int := fun text =>
  match skipBlanks text with
  | '-' :: rest => if (rest.head?.any Char.isDigit) then
      (number rest.length rest).map fun (n, rest) => (-(n : Int), rest) else none
  | '+' :: rest => if (rest.head?.any Char.isDigit) then
      (number rest.length rest).map fun (n, rest) => ((n : Int), rest) else none
  | text => (number 4 text).map fun (n, rest) => ((n : Int), rest)

/-- The rest behind a given character, after any blanks. -/
def behind (c : Char) (text : List Char) : Option (List Char) :=
  match skipBlanks text with
  | d :: rest => if d = c then some rest else none
  | [] => none

/-- The fraction of a second in nanoseconds. Digits from the tenth on are read and dropped. -/
def fraction : Reader Nat := fun text =>
  match text with
  | '.' :: rest =>
    let digits := (rest.take 9).takeWhile Char.isDigit
    if digits.isEmpty then none
    else some (valueOf digits * Nat.pow 10 (9 - digits.length), rest.dropWhile Char.isDigit)
  | _ => some (0, text)

/-- Hours and minutes ahead of universal time, in minutes. -/
def offset : Reader Int := fun text =>
  let text := skipBlanks text
  if (text.take 3).map Char.toUpper = ['U', 'T', 'C'] then some (0, text.drop 3)
  else match text with
    | 'Z' :: rest | 'z' :: rest => some (0, rest)
    | sign :: h :: h' :: rest =>
      if (sign = '+' ∨ sign = '-' ∨ sign = '\u2212') ∧ h.isDigit ∧ h'.isDigit then
        match rest.dropWhile fun c => c = ':' ∨ isBlank c with
        | m :: m' :: rest =>
          let minutes := valueOf [m, m']
          if m.isDigit ∧ m'.isDigit ∧ minutes < 60 ∧ valueOf [h, h'] < 24 then
            let total : Int := 60 * valueOf [h, h'] + minutes
            some (if sign = '+' then total else -total, rest)
          else none
        | _ => none
      else none
    | _ => none

/-- The rest behind the mark between a date and a time. -/
def behindMark : List Char → Option (List Char)
  | 'T' :: rest | 't' :: rest | ' ' :: rest => some rest
  | _ => none

/-- Reads a date, a time of day and an offset that fill the whole text, but for blanks. -/
def parse? (text : String) : Option Timestamp := do
  let (year, rest) ← year text.toList
  let (month, rest) ← number 2 (← behind '-' rest)
  let (day, rest) ← number 2 (← behind '-' rest)
  let (hour, rest) ← number 2 (← behindMark rest)
  let (minute, rest) ← number 2 (← behind ':' rest)
  let (second, rest) ← number 2 (← behind ':' rest)
  let (nanoseconds, rest) ← fraction rest
  let (ahead, rest) ← offset rest
  let date : CalendarDay := ⟨year, month, day⟩
  if skipBlanks rest = [] ∧ date.isValid ∧ inYears year ∧ hour < 24 ∧ minute < 60 ∧ second ≤ 60 then
    let leap := if second = 60 then 1 else 0
    let seconds := date.number * 86400 + (hour * 3600 + minute * 60 + (second - leap) : Nat) - ahead * 60
    if inYears (CalendarDay.ofNumber (seconds / 86400)).year then
      some ⟨seconds, nanoseconds + leap * 1000000000⟩
    else none
  else none

end Timestamp

end Wayfinding
