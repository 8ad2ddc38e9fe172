import Wayfinding.Proofs.Json.Grammar

namespace Wayfinding.Json

open Grammar

/-- A text does not go on with a digit. -/
def NoDigit (text : List Char) : Prop := ∀ c ∈ text.head?, digit? c = none

/-- What follows a number is not taken for a part of it. -/
def EndsNumber (text : List Char) : Prop :=
  ∀ c ∈ text.head?, digit? c = none ∧ c ≠ '.' ∧ c ≠ 'e' ∧ c ≠ 'E'

theorem EndsNumber.noDigit {text : List Char} (h : EndsNumber text) : NoDigit text :=
  fun c hc => (h c hc).1

theorem valueOf_append (front : List (Fin 10)) (digit : Fin 10) :
    valueOf (front ++ [digit]) = 10 * valueOf front + digit.val := by
  rw [valueOf, List.foldl_append]
  rfl

theorem Grammar.Numeral.digit (digit : Fin 10) : Numeral [digit] digit.val where
  value := by simp [valueOf]
  nonempty := List.cons_ne_nil _ _
  leading := fun _ => rfl

theorem Grammar.Numeral.append {front : List (Fin 10)} {n : Nat} (h : Numeral front n) (hn : 0 < n)
    (digit : Fin 10) : Numeral (front ++ [digit]) (10 * n + digit.val) where
  value := by rw [valueOf_append, h.value]
  nonempty := by simp
  leading := by
    intro hz
    -- A zero in front would be all there is, and the number would be zero.
    have hfront : front.head? = some 0 := by
      cases front with
      | nil => exact absurd rfl h.nonempty
      | cons first rest => exact hz
    obtain ⟨first, rfl⟩ := List.length_eq_one_iff.mp (h.leading hfront)
    obtain rfl := Option.some.inj hfront
    have hvalue := h.value
    exact absurd hvalue (by simp [valueOf]; omega)

theorem digitChar_eq (digit : Fin 10) : Nat.digitChar digit.val = digitChar digit := by
  revert digit
  decide

theorem digit?_digitChar (digit : Fin 10) : digit? (digitChar digit) = some digit := by
  revert digit
  decide

theorem digitChar_ne {c : Char} (h : digit? c = none) (digit : Fin 10) : digitChar digit ≠ c := by
  rintro rfl
  exact Option.some_ne_none _ ((digit?_digitChar digit).symm.trans h)

theorem toDigits_numeral (n : Nat) :
    ∃ digits, Nat.toDigits 10 n = digits.map digitChar ∧ Numeral digits n := by
  induction n using Nat.strongRecOn with
  | ind n ih =>
    by_cases hn : n < 10
    · refine ⟨[⟨n, hn⟩], ?_, .digit _⟩
      rw [Nat.toDigits_of_lt_base hn]
      exact congrArg (fun c => [c]) (digitChar_eq ⟨n, hn⟩)
    · obtain ⟨front, hfront, hnum⟩ := ih (n / 10) (by omega)
      have hlast : n % 10 < 10 := Nat.mod_lt n (by decide)
      refine ⟨front ++ [⟨n % 10, hlast⟩], ?_, ?_⟩
      · rw [Nat.toDigits_of_base_le (by decide) (by omega), hfront, List.map_append]
        exact congrArg (fun c => front.map digitChar ++ [c]) (digitChar_eq ⟨n % 10, hlast⟩)
      · have := hnum.append (by omega) ⟨n % 10, hlast⟩
        simpa only [Nat.div_add_mod] using this

theorem readDigits_map {rest : List Char} (h : NoDigit rest) (digits : List (Fin 10)) :
    readDigits (digits.map digitChar ++ rest) = (digits, rest) := by
  induction digits with
  | nil =>
    cases rest with
    | nil => rfl
    | cons c rest =>
      have hc : digit? c = none := h c rfl
      simp [readDigits, hc]
  | cons digit digits ih => simp [readDigits, digit?_digitChar, ih]

section

variable {start rest : List Char}

theorem readWhole_numeral {digits : List (Fin 10)} {n : Nat} (h : Numeral digits n) (hrest : NoDigit rest) :
    readWhole (digits.map digitChar ++ rest) = some (n, rest) := by
  rw [readWhole, readDigits_map hrest]
  split
  · rename_i he
    exact absurd (Prod.mk.inj he).1 h.nonempty
  · rename_i digit _ he
    obtain ⟨rfl, rfl⟩ := Prod.mk.inj he
    simpa [valueOf] using h.value
  · rename_i hsingle he
    obtain ⟨rfl, rfl⟩ := Prod.mk.inj he
    rw [if_neg, h.value]
    intro hz
    obtain ⟨digit, rfl⟩ := List.length_eq_one_iff.mp (h.leading hz)
    exact hsingle digit rfl

theorem readFraction_of_fraction {digits : List (Fin 10)} (h : Fraction digits start rest) (hrest : NoDigit rest)
    (hpoint : rest.head? ≠ some '.') : readFraction start = some (digits, rest) := by
  cases h with
  | none =>
    rw [readFraction.eq_def]
    split
    · exact absurd rfl hpoint
    · rfl
  | some nonempty =>
    rw [readFraction, readDigits_map hrest]
    split
    · rename_i he
      exact absurd (Prod.mk.inj he).1 nonempty
    · rename_i he
      obtain ⟨rfl, rfl⟩ := Prod.mk.inj he
      rfl

theorem readPower_digits (negative : Bool) {digits : List (Fin 10)} (nonempty : digits ≠ [])
    (hrest : NoDigit rest) :
    readPower negative (digits.map digitChar ++ rest) =
      some (some (if negative then -(valueOf digits : Int) else valueOf digits), rest) := by
  rw [readPower, readDigits_map hrest]
  split
  · rename_i he
    exact absurd (Prod.mk.inj he).1 nonempty
  · rename_i he
    obtain ⟨rfl, rfl⟩ := Prod.mk.inj he
    rfl

theorem readExponent_of_exponent {power : Option Int} (h : Exponent power start rest) (hrest : EndsNumber rest) :
    readExponent start = some (power, rest) := by
  cases h with
  | none =>
    cases start with
    | nil => rfl
    | cons c rest =>
      obtain ⟨-, -, hlower, hupper⟩ := hrest c rfl
      simp [readExponent, hlower, hupper]
  | @some c negative digits next _ mark sign nonempty =>
    have hread := readPower_digits negative nonempty hrest.noDigit
    rw [readExponent.eq_def]
    dsimp only
    rw [if_pos mark]
    cases sign with
    | plus | minus => exact hread
    | none =>
      obtain ⟨digit, others, rfl⟩ := List.exists_cons_of_ne_nil nonempty
      -- The first digit is no sign.
      have hminus := digitChar_ne (c := '-') (by decide) digit
      have hplus := digitChar_ne (c := '+') (by decide) digit
      rw [List.map_cons, List.cons_append] at hread ⊢
      split
      · rename_i he
        exact absurd (List.cons.inj he).1 hminus
      · rename_i he
        exact absurd (List.cons.inj he).1 hplus
      · exact hread

theorem noDigit_exponent {power : Option Int} (h : Exponent power start rest) (hrest : EndsNumber rest) :
    NoDigit start ∧ start.head? ≠ some '.' := by
  cases h with
  | none => exact ⟨hrest.noDigit, fun hc => (hrest _ hc).2.1 rfl⟩
  | some mark _ _ =>
    obtain rfl | rfl := mark
    all_goals
      refine ⟨?_, by simp⟩
      rintro c hc
      obtain rfl := Option.some.inj hc
      decide

theorem noDigit_fraction {digits : List (Fin 10)} (h : Fraction digits start rest) (hrest : NoDigit rest) :
    NoDigit start := by
  cases h with
  | none => exact hrest
  | some _ =>
    rintro c hc
    obtain rfl : '.' = c := Option.some.inj hc
    decide

/-- A number is read if what follows is not taken for a part of it. -/
theorem readNumber_of_number {number : Number} (h : Grammar.Number number start rest) (hrest : EndsNumber rest) :
    readNumber start = some (number, rest) := by
  obtain @⟨negative, digits, places, n, power, point, mark, _, whole, fraction, exponent⟩ := h
  obtain ⟨hmark, hpoint⟩ := noDigit_exponent exponent hrest
  have hwhole := readWhole_numeral whole (noDigit_fraction fraction hmark)
  have hread (negative : Bool) :
      readUnsigned negative (digits.map digitChar ++ point) = some (⟨negative, n, places, power⟩, rest) := by
    simp [readUnsigned, hwhole, readFraction_of_fraction fraction hmark hpoint,
      readExponent_of_exponent exponent hrest]
  cases negative with
  | true => exact hread true
  | false =>
    obtain ⟨digit, others, rfl⟩ := List.exists_cons_of_ne_nil whole.nonempty
    have hminus := digitChar_ne (c := '-') (by decide) digit
    simp only [Bool.false_eq_true, if_false, List.nil_append, List.map_cons, List.cons_append] at hread ⊢
    rw [readNumber.eq_def]
    split
    · rename_i he
      exact absurd (List.cons.inj he).1 hminus
    · exact hread false

end

def fractionText (fraction : List (Fin 10)) : List Char :=
  if fraction.isEmpty then [] else '.' :: fraction.map digitChar

def exponentText : Option Int → List Char
  | none => []
  | some (.ofNat e) => 'e' :: Nat.toDigits 10 e
  | some (.negSucc e) => 'e' :: '-' :: Nat.toDigits 10 (e + 1)

theorem writeNumber_eq (number : Number) :
    writeNumber number =
      (if number.negative then ['-'] else []) ++ (Nat.toDigits 10 number.whole
        ++ (fractionText number.fraction ++ exponentText number.exponent)) := by
  rw [writeNumber]
  simp only [fractionText, List.append_assoc]
  rcases number.exponent with _ | _ | _ <;> rfl

theorem fraction_fractionText (fraction : List (Fin 10)) (rest : List Char) :
    Fraction fraction (fractionText fraction ++ rest) rest := by
  cases fraction with
  | nil => exact .none
  | cons digit others => exact .some (List.cons_ne_nil digit others)

theorem exponent_exponentText (exponent : Option Int) (rest : List Char) :
    Exponent exponent (exponentText exponent ++ rest) rest := by
  rcases exponent with _ | e | e
  · exact .none
  · obtain ⟨digits, hdigits, hnum⟩ := toDigits_numeral e
    have hspelled : Exponent (some (valueOf digits)) ('e' :: (digits.map digitChar ++ rest)) rest :=
      .some (.inl rfl) .none hnum.nonempty
    rw [hnum.value, ← hdigits] at hspelled
    exact hspelled
  · obtain ⟨digits, hdigits, hnum⟩ := toDigits_numeral (e + 1)
    have hspelled : Exponent (some (-(valueOf digits : Int))) ('e' :: '-' :: (digits.map digitChar ++ rest)) rest :=
      .some (.inl rfl) .minus hnum.nonempty
    rw [hnum.value, ← hdigits] at hspelled
    exact hspelled

theorem number_writeNumber (number : Number) (rest : List Char) :
    Grammar.Number number (writeNumber number ++ rest) rest := by
  obtain ⟨digits, hdigits, hnum⟩ := toDigits_numeral number.whole
  rw [writeNumber_eq, hdigits]
  simp only [List.append_assoc]
  exact .intro hnum (fraction_fractionText number.fraction _) (exponent_exponentText number.exponent rest)

end Wayfinding.Json
