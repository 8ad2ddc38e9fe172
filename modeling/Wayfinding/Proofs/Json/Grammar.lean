import Wayfinding.Json.Reader
import Wayfinding.Json.Writer

namespace Wayfinding.Json

open Text

namespace Grammar

/-- Any number of blanks. -/
inductive Blanks : List Char → List Char → Prop where
  | none {rest : List Char} : Blanks rest rest
  | cons {c : Char} {next rest : List Char} (blank : isSpace c = true) (more : Blanks next rest) :
    Blanks (c :: next) rest

/-- The pieces of a text and its closing quote. Any character may come with its letter or its code, and any but
quotes, backslashes and controls may come raw. -/
inductive Pieces : List Piece → List Char → List Char → Prop where
  | close {rest : List Char} : Pieces [] ('"' :: rest) rest
  | raw {c : Char} {pieces : List Piece} {next rest : List Char} (printable : 0x20 ≤ c.toNat)
    (plain : c ≠ '"' ∧ c ≠ '\\') (more : Pieces pieces next rest) : Pieces (.char c :: pieces) (c :: next) rest
  | letter {c letter : Char} {pieces : List Piece} {next rest : List Char} (stands : ofLetter? letter = some c)
    (more : Pieces pieces next rest) : Pieces (.char c :: pieces) ('\\' :: letter :: next) rest
  | code {a b c d : Char} {code : Nat} {pieces : List Piece} {next rest : List Char}
    (stands : Hex.number? [a, b, c, d] = some code) (more : Pieces pieces next rest) :
    Pieces (.ofCode code :: pieces) ('\\' :: 'u' :: a :: b :: c :: d :: next) rest

/-- A text between quotes. -/
inductive Quoted : Option String → List Char → List Char → Prop where
  | intro {pieces : List Piece} {next rest : List Char} (inside : Pieces pieces next rest) :
    Quoted ((assemble? pieces).map String.ofList) ('"' :: next) rest

/-- The digits of a whole number: a zero comes before no other digit. -/
structure Numeral (digits : List (Fin 10)) (n : Nat) : Prop where
  value : valueOf digits = n
  nonempty : digits ≠ []
  leading : digits.head? = some 0 → digits.length = 1

/-- A point and digits behind it, or neither. -/
inductive Fraction : List (Fin 10) → List Char → List Char → Prop where
  | none {rest : List Char} : Fraction [] rest rest
  | some {digits : List (Fin 10)} {rest : List Char} (nonempty : digits ≠ []) :
    Fraction digits ('.' :: (digits.map digitChar ++ rest)) rest

/-- A sign of either kind, or none. -/
inductive Sign : Bool → List Char → List Char → Prop where
  | none {rest : List Char} : Sign false rest rest
  | plus {rest : List Char} : Sign false ('+' :: rest) rest
  | minus {rest : List Char} : Sign true ('-' :: rest) rest

/-- A power of ten with a letter in front, or none. Its digits may begin with any number of zeros. -/
inductive Exponent : Option Int → List Char → List Char → Prop where
  | none {rest : List Char} : Exponent none rest rest
  | some {c : Char} {negative : Bool} {digits : List (Fin 10)} {next rest : List Char} (mark : c = 'e' ∨ c = 'E')
    (sign : Sign negative next (digits.map digitChar ++ rest)) (nonempty : digits ≠ []) :
    Exponent (some (if negative then -(valueOf digits : Int) else valueOf digits)) (c :: next) rest

inductive Number : Json.Number → List Char → List Char → Prop where
  | intro {negative : Bool} {digits places : List (Fin 10)} {n : Nat} {power : Option Int}
    {point mark rest : List Char} (whole : Numeral digits n) (fraction : Fraction places point mark)
    (exponent : Exponent power mark rest) :
    Number ⟨negative, n, places, power⟩
      ((if negative then ['-'] else []) ++ (digits.map digitChar ++ point)) rest

mutual

inductive Value : Json → List Char → List Char → Prop where
  | null {rest : List Char} : Value .null ('n' :: 'u' :: 'l' :: 'l' :: rest) rest
  | true {rest : List Char} : Value (.bool true) ('t' :: 'r' :: 'u' :: 'e' :: rest) rest
  | false {rest : List Char} : Value (.bool false) ('f' :: 'a' :: 'l' :: 's' :: 'e' :: rest) rest
  | number {n : Json.Number} {start rest : List Char} (spelled : Number n start rest) :
    Value (.number n) start rest
  | string {text : Option String} {start rest : List Char} (quoted : Quoted text start rest) :
    Value (.string text) start rest
  | emptyArray {next rest : List Char} (blanks : Blanks next (']' :: rest)) : Value (.array []) ('[' :: next) rest
  | array {values : List Json} {next rest : List Char} (inside : Elements values next rest) :
    Value (.array values) ('[' :: next) rest
  | emptyObject {next rest : List Char} (blanks : Blanks next ('\x7d' :: rest)) :
    Value (.object []) ('\x7b' :: next) rest
  | object {members : List (Option String × Json)} {next rest : List Char} (inside : Members members next rest) :
    Value (.object members) ('\x7b' :: next) rest

/-- The elements of an array, one at least, with commas between them, and its end. -/
inductive Elements : List Json → List Char → List Char → Prop where
  | last {value : Json} {start first next rest : List Char} (before : Blanks start first)
    (spelled : Value value first next) (after : Blanks next (']' :: rest)) : Elements [value] start rest
  | cons {value : Json} {values : List Json} {start first next more rest : List Char} (before : Blanks start first)
    (spelled : Value value first next) (after : Blanks next (',' :: more)) (others : Elements values more rest) :
    Elements (value :: values) start rest

/-- A key and its value, with a colon between them and blanks all around. -/
inductive Member : Option String × Json → List Char → List Char → Prop where
  | intro {key : Option String} {value : Json} {start quote next behind first last rest : List Char}
    (before : Blanks start quote) (name : Quoted key quote next) (colon : Blanks next (':' :: behind))
    (between : Blanks behind first) (spelled : Value value first last) (after : Blanks last rest) :
    Member (key, value) start rest

/-- The members of an object, one at least, with commas between them, and its end. -/
inductive Members : List (Option String × Json) → List Char → List Char → Prop where
  | last {entry : Option String × Json} {start rest : List Char} (member : Member entry start ('\x7d' :: rest)) :
    Members [entry] start rest
  | cons {entry : Option String × Json} {members : List (Option String × Json)} {start more rest : List Char}
    (member : Member entry start (',' :: more)) (others : Members members more rest) :
    Members (entry :: members) start rest

end

theorem Blanks.length_le {start rest : List Char} (h : Blanks start rest) : rest.length ≤ start.length := by
  induction h with
  | none => exact Nat.le_refl _
  | cons _ _ ih => exact Nat.le_succ_of_le ih

theorem Pieces.length_lt {pieces : List Piece} {start rest : List Char} (h : Pieces pieces start rest) :
    rest.length < start.length := by
  induction h with
  | close => exact Nat.lt_succ_self _
  | raw _ _ _ ih | letter _ _ ih | code _ _ ih =>
    simp only [List.length_cons]
    omega

theorem Quoted.length_lt {text : Option String} {start rest : List Char} (h : Quoted text start rest) :
    rest.length < start.length := by
  obtain ⟨inside⟩ := h
  exact Nat.lt_succ_of_lt inside.length_lt

theorem Fraction.length_le {digits : List (Fin 10)} {start rest : List Char} (h : Fraction digits start rest) :
    rest.length ≤ start.length := by
  cases h with
  | none => exact Nat.le_refl _
  | some _ =>
    simp only [List.length_cons, List.length_append]
    omega

theorem Sign.length_le {negative : Bool} {start rest : List Char} (h : Sign negative start rest) :
    rest.length ≤ start.length := by
  cases h with
  | none => exact Nat.le_refl _
  | plus | minus => exact Nat.le_succ _

theorem Exponent.length_le {power : Option Int} {start rest : List Char} (h : Exponent power start rest) :
    rest.length ≤ start.length := by
  cases h with
  | none => exact Nat.le_refl _
  | some _ sign _ =>
    have := sign.length_le
    simp only [List.length_cons, List.length_append] at *
    omega

theorem Number.length_lt {number : Json.Number} {start rest : List Char} (h : Number number start rest) :
    rest.length < start.length := by
  obtain ⟨whole, fraction, exponent⟩ := h
  have hdigits := List.length_pos_iff.mpr whole.nonempty
  have hfraction := fraction.length_le
  have hexponent := exponent.length_le
  simp only [List.length_append, List.length_map]
  omega

mutual

theorem Value.length_lt {value : Json} {start rest : List Char} :
    Value value start rest → rest.length < start.length
  | .null | .true | .false => by
    simp only [List.length_cons]
    omega
  | .number spelled => spelled.length_lt
  | .string quoted => quoted.length_lt
  | .emptyArray blanks | .emptyObject blanks => by
    have := blanks.length_le
    simp only [List.length_cons] at *
    omega
  | .array inside => Nat.lt_succ_of_lt inside.length_lt
  | .object inside => Nat.lt_succ_of_lt inside.length_lt

theorem Elements.length_lt {values : List Json} {start rest : List Char} :
    Elements values start rest → rest.length < start.length
  | .last before value after => by
    have hbefore := before.length_le
    have hvalue := value.length_lt
    have hafter := after.length_le
    simp only [List.length_cons] at hafter
    omega
  | .cons before value after others => by
    have hbefore := before.length_le
    have hvalue := value.length_lt
    have hafter := after.length_le
    have hothers := others.length_lt
    simp only [List.length_cons] at hafter
    omega

theorem Member.length_lt {entry : Option String × Json} {start rest : List Char} :
    Member entry start rest → rest.length < start.length
  | .intro before key colon between value after => by
    have hbefore := before.length_le
    have hkey := key.length_lt
    have hcolon := colon.length_le
    have hbetween := between.length_le
    have hvalue := value.length_lt
    have hafter := after.length_le
    simp only [List.length_cons] at hcolon
    omega

theorem Members.length_lt {members : List (Option String × Json)} {start rest : List Char} :
    Members members start rest → rest.length < start.length
  | .last member => by
    have hmember := member.length_lt
    simp only [List.length_cons] at hmember
    omega
  | .cons member others => by
    have hmember := member.length_lt
    have hothers := others.length_lt
    simp only [List.length_cons] at hmember
    omega

end

end Grammar

/-- A text is one value with nothing but blanks around it. -/
def Spells (text : String) (value : Json) : Prop :=
  ∃ start rest, Grammar.Blanks text.toList start ∧ Grammar.Value value start rest ∧ Grammar.Blanks rest []

end Wayfinding.Json
