import Wayfinding.Proofs.Json.Reading

namespace Wayfinding.Json

open Text

/-- Where in a text a character stands: between quotes or not, and there behind a backslash or not. -/
inductive Place where
  | outside
  | quoted
  | escaped
deriving DecidableEq

/-- How many arrays and objects are open at once, at most, from a place in a text on where `opened` are. -/
def nesting : Place → Nat → List Char → Nat
  | _, opened, [] => opened
  | .outside, opened, c :: rest =>
    if c = '[' ∨ c = '\x7b' then nesting .outside (opened + 1) rest
    else if c = ']' ∨ c = '\x7d' then max opened (nesting .outside (opened - 1) rest)
    else nesting (if c = '"' then .quoted else .outside) opened rest
  | .quoted, opened, c :: rest =>
    nesting (if c = '"' then .outside else if c = '\\' then .escaped else .quoted) opened rest
  | .escaped, opened, _ :: rest => nesting .quoted opened rest

/-- How many arrays and objects lie in each other at the deepest place of a text. -/
def textNesting (text : String) : Nat := nesting .outside 0 text.toList

theorem le_nesting (place : Place) (opened : Nat) (text : List Char) :
    opened ≤ nesting place opened text := by
  induction text generalizing place opened with
  | nil => exact Nat.le_of_eq (by rw [nesting])
  | cons c rest ih =>
    cases place with
    | outside =>
      rw [nesting]
      split
      · exact Nat.le_of_succ_le (ih .outside (opened + 1))
      · split
        · exact Nat.le_max_left _ _
        · exact ih _ opened
    | quoted => exact ih _ opened
    | escaped => exact ih _ opened

/-- The characters outside of strings that open and close nothing. -/
def isPlain (c : Char) : Bool := c ∉ ['[', ']', '\x7b', '\x7d', '"']

theorem nesting_plain {text : List Char} (h : ∀ c ∈ text, isPlain c) (opened : Nat) (rest : List Char) :
    nesting .outside opened (text ++ rest) = nesting .outside opened rest := by
  induction text with
  | nil => rfl
  | cons c text ih =>
    obtain ⟨hc, htext⟩ := List.forall_mem_cons.mp h
    simp only [isPlain, List.mem_cons, List.not_mem_nil, or_false, not_or, decide_eq_true_eq] at hc
    obtain ⟨h₁, h₂, h₃, h₄, h₅⟩ := hc
    rw [List.cons_append, nesting]
    simp only [h₁, h₂, h₃, h₄, h₅, or_self, if_false, ih htext]

theorem isPlain_digitChar (digit : Fin 10) : isPlain (digitChar digit) := by
  revert digit
  decide

theorem isPlain_toDigits (n : Nat) : ∀ c ∈ Nat.toDigits 10 n, isPlain c := by
  obtain ⟨digits, hdigits, -⟩ := toDigits_numeral n
  rw [hdigits]
  exact List.forall_mem_map.mpr fun digit _ => isPlain_digitChar digit

theorem isPlain_writeNumber (number : Number) : ∀ c ∈ writeNumber number, isPlain c := by
  have hfraction : ∀ c ∈ fractionText number.fraction, isPlain c := by
    rw [fractionText]
    split
    · simp
    · exact List.forall_mem_cons.mpr ⟨by decide, List.forall_mem_map.mpr fun d _ => isPlain_digitChar d⟩
  have hexponent : ∀ c ∈ exponentText number.exponent, isPlain c := by
    rcases number.exponent with _ | e | e
    · simp [exponentText]
    · exact List.forall_mem_cons.mpr ⟨by decide, isPlain_toDigits e⟩
    · refine List.forall_mem_cons.mpr ⟨by decide, List.forall_mem_cons.mpr ⟨by decide, ?_⟩⟩
      exact isPlain_toDigits (e + 1)
  rw [writeNumber_eq]
  simp only [List.forall_mem_append]
  refine ⟨?_, isPlain_toDigits number.whole, hfraction, hexponent⟩
  split <;> simp [isPlain]

theorem nesting_quoted {c : Char} (hquote : c ≠ '"') (hslash : c ≠ '\\') (opened : Nat)
    (rest : List Char) : nesting .quoted opened (c :: rest) = nesting .quoted opened rest := by
  rw [nesting, if_neg hquote, if_neg hslash]

theorem nesting_ofByte (byte : UInt8) (opened : Nat) (rest : List Char) :
    nesting .quoted opened (Hex.ofByte byte ++ rest) = nesting .quoted opened rest := by
  have hdigit : ∀ d < 16, Nat.digitChar d ≠ '"' ∧ Nat.digitChar d ≠ '\\' := by decide
  obtain ⟨high, hhigh, low, hlow, hdigits, -⟩ := Hex.ofByte_eq byte
  obtain ⟨hquote, hslash⟩ := hdigit high hhigh
  obtain ⟨hquote', hslash'⟩ := hdigit low hlow
  rw [hdigits, List.cons_append, List.cons_append, List.nil_append, nesting_quoted hquote hslash,
    nesting_quoted hquote' hslash']

/-- What stands for a character in a string does not end the string. -/
theorem nesting_writeChar (c : Char) (opened : Nat) (rest : List Char) :
    nesting .quoted opened (writeChar c ++ rest) = nesting .quoted opened rest := by
  unfold writeChar
  cases h : letterOf? c with
  | some letter => rfl
  | none =>
    dsimp only
    split
    · exact nesting_ofByte _ opened rest
    · obtain ⟨hquote, hslash⟩ := letterOf?_eq_none h
      exact nesting_quoted hquote hslash opened rest

theorem nesting_writeString (text : Option String) (opened : Nat) (rest : List Char) :
    nesting .outside opened (writeString text ++ rest) = nesting .outside opened rest := by
  cases text with
  | none => rfl
  | some text =>
    have hbody (chars : List Char) :
        nesting .quoted opened (chars.flatMap writeChar ++ '"' :: rest) = nesting .outside opened rest := by
      induction chars with
      | nil => rfl
      | cons c chars ih => rw [List.flatMap_cons, List.append_assoc, nesting_writeChar, ih]
    have hwhole : writeString (some text) ++ rest = '"' :: (text.toList.flatMap writeChar ++ '"' :: rest) := by
      simp [writeString, writeText]
    rw [hwhole]
    exact hbody text.toList

mutual

/-- How many arrays and objects lie in each other, at most, in a value. -/
def depth : Json → Nat
  | null | bool _ | number _ | string _ => 0
  | array values => depthAll values + 1
  | object members => depthMembers members + 1

def depthAll : List Json → Nat
  | [] => 0
  | value :: rest => max (depth value) (depthAll rest)

def depthMembers : List (Option String × Json) → Nat
  | [] => 0
  | (_, value) :: rest => max (depth value) (depthMembers rest)

end

theorem nesting_flat {text rest : List Char} {opened : Nat}
    (h : nesting .outside opened (text ++ rest) = nesting .outside opened rest) :
    nesting .outside opened (text ++ rest) = max (opened + 0) (nesting .outside opened rest) := by
  rw [h, Nat.add_zero, Nat.max_eq_right (le_nesting .outside opened rest)]

theorem nesting_open {c : Char} (h : c = '[' ∨ c = '\x7b') (opened : Nat) (rest : List Char) :
    nesting .outside opened (c :: rest) = nesting .outside (opened + 1) rest := by
  rw [nesting, if_pos h]

theorem nesting_close {c : Char} (h : c = ']' ∨ c = '\x7d') (opened : Nat) (rest : List Char) :
    nesting .outside (opened + 1) (c :: rest) = max (opened + 1) (nesting .outside opened rest) := by
  rw [nesting, if_neg (by rcases h with rfl | rfl <;> decide), if_pos h, Nat.add_sub_cancel]

theorem nesting_separator {c : Char} (h : c = ',' ∨ c = ':') (opened : Nat) (rest : List Char) :
    nesting .outside opened (c :: rest) = nesting .outside opened rest := by
  rcases h with rfl | rfl <;> rfl

mutual

/-- What a value adds to the nesting of a text is its depth. -/
theorem nesting_write : (value : Json) → (opened : Nat) → (rest : List Char) →
    nesting .outside opened (value.write ++ rest) =
      max (opened + value.depth) (nesting .outside opened rest)
  | .null, opened, rest => nesting_flat (by rw [write]; rfl)
  | .bool true, opened, rest => nesting_flat (by rw [write]; rfl)
  | .bool false, opened, rest => nesting_flat (by rw [write]; rfl)
  | .number n, opened, rest => nesting_flat (nesting_plain (isPlain_writeNumber n) opened rest)
  | .string text, opened, rest => nesting_flat (nesting_writeString text opened rest)
  | .array values, opened, rest => by
    have hvalues := nesting_elementsText values opened rest
    rw [write_array, List.cons_append, nesting_open (.inl rfl), hvalues, depth]
    omega
  | .object members, opened, rest => by
    have hmembers := nesting_membersText members opened rest
    rw [write_object, List.cons_append, nesting_open (.inr rfl), hmembers, depth]
    omega

theorem nesting_elementsText : (values : List Json) → (opened : Nat) → (rest : List Char) →
    nesting .outside (opened + 1) (elementsText values ++ rest) =
      max (opened + 1 + depthAll values) (nesting .outside opened rest)
  | [], opened, rest => by
    rw [elementsText, List.cons_append, nesting_close (.inl rfl), depthAll]
    rfl
  | [value], opened, rest => by
    rw [elementsText, writeElements, List.append_assoc, List.cons_append, List.nil_append,
      nesting_write value, nesting_close (.inl rfl), depthAll, depthAll]
    omega
  | value :: next :: others, opened, rest => by
    rw [elementsText, writeElements_cons, List.append_assoc, List.cons_append, nesting_write value,
      nesting_separator (.inl rfl), nesting_elementsText (next :: others), depthAll.eq_2 value]
    omega

theorem nesting_membersText : (members : List (Option String × Json)) → (opened : Nat) →
    (rest : List Char) →
    nesting .outside (opened + 1) (membersText members ++ rest) =
      max (opened + 1 + depthMembers members) (nesting .outside opened rest)
  | [], opened, rest => by
    rw [membersText, List.cons_append, nesting_close (.inr rfl), depthMembers]
    rfl
  | [(key, value)], opened, rest => by
    rw [membersText, writeMembers, writeMember]
    simp only [List.append_assoc, List.cons_append, List.nil_append]
    rw [nesting_writeString, nesting_separator (.inr rfl), nesting_write value,
      nesting_close (.inr rfl), depthMembers, depthMembers]
    omega
  | (key, value) :: next :: others, opened, rest => by
    rw [membersText, writeMembers_cons, writeMember]
    simp only [List.append_assoc, List.cons_append]
    rw [nesting_writeString, nesting_separator (.inr rfl), nesting_write value,
      nesting_separator (.inl rfl), nesting_membersText (next :: others), depthMembers.eq_2 key]
    omega

end

theorem textNesting_text (value : Json) : textNesting value.text = value.depth := by
  have hwrite := nesting_write value 0 []
  rw [List.append_nil, nesting, Nat.max_zero, Nat.zero_add] at hwrite
  rw [textNesting, text, String.toList_ofList, hwrite]

/-- The bracket in the string opens nothing. -/
example : textNesting "[[\"[\\\"\"],[]]" = 2 := by decide +kernel

end Wayfinding.Json
