namespace Wayfinding.Text.Hex

def value? (c : Char) : Option Nat :=
  if '0' ≤ c ∧ c ≤ '9' then some (c.toNat - '0'.toNat)
  else if 'a' ≤ c ∧ c ≤ 'f' then some (c.toNat - 'a'.toNat + 10)
  else if 'A' ≤ c ∧ c ≤ 'F' then some (c.toNat - 'A'.toNat + 10)
  else none

def ofByte (byte : UInt8) : List Char :=
  [Nat.digitChar (byte.toNat / 16), Nat.digitChar (byte.toNat % 16)]

def ofBytes (bytes : List UInt8) : List Char := bytes.flatMap ofByte

/-- The bytes written by pairs of digits. -/
def bytes? : List Char → Option (List UInt8)
  | [] => some []
  | [_] => none
  | high :: low :: rest =>
    match value? high, value? low, bytes? rest with
    | some h, some l, some bytes => some (UInt8.ofNat (16 * h + l) :: bytes)
    | _, _, _ => none

/-- The number written by a list of digits, the most significant first. -/
def number? (digits : List Char) : Option Nat :=
  digits.foldl (fun acc c => acc.bind fun n => (value? c).map (16 * n + ·)) (some 0)

theorem value?_digitChar : ∀ d < 16, value? (Nat.digitChar d) = some d := by decide

theorem ofByte_eq (byte : UInt8) :
    ∃ high < 16, ∃ low < 16, ofByte byte = [Nat.digitChar high, Nat.digitChar low] ∧
      byte.toNat = 16 * high + low := by
  have hbyte := byte.toNat_lt
  exact ⟨byte.toNat / 16, by omega, byte.toNat % 16, by omega, rfl, by omega⟩

theorem bytes?_ofByte_append (byte : UInt8) (rest : List Char) :
    bytes? (ofByte byte ++ rest) = (bytes? rest).map (byte :: ·) := by
  obtain ⟨high, hhigh, low, hlow, hdigits, hbyte⟩ := ofByte_eq byte
  have whole : UInt8.ofNat (16 * high + low) = byte := by rw [← hbyte, UInt8.ofNat_toNat]
  simp only [hdigits, List.cons_append, List.nil_append, bytes?, value?_digitChar high hhigh,
    value?_digitChar low hlow]
  cases bytes? rest with
  | none => rfl
  | some bytes => simp only [Option.map_some, whole]

theorem number?_ofByte (byte : UInt8) : number? ('0' :: '0' :: ofByte byte) = some byte.toNat := by
  obtain ⟨high, hhigh, low, hlow, hdigits, hbyte⟩ := ofByte_eq byte
  have zero : value? '0' = some 0 := value?_digitChar 0 (by decide)
  simp only [number?, hdigits, List.foldl_cons, List.foldl_nil, Option.bind_some, Option.map_some, zero,
    value?_digitChar high hhigh, value?_digitChar low hlow, hbyte, Option.some.injEq]
  omega

theorem bytes?_ofBytes (bytes : List UInt8) : bytes? (ofBytes bytes) = some bytes := by
  induction bytes with
  | nil => rfl
  | cons byte bytes ih =>
    rw [ofBytes, List.flatMap_cons, bytes?_ofByte_append]
    simpa [ofBytes] using congrArg (Option.map (byte :: ·)) ih

theorem length_ofBytes (bytes : List UInt8) : (ofBytes bytes).length = 2 * bytes.length := by
  induction bytes with
  | nil => rfl
  | cons byte bytes ih =>
    simp only [ofBytes, List.flatMap_cons, List.length_append, List.length_cons] at ih ⊢
    simp only [ih, ofByte, List.length_cons, List.length_nil]
    omega

end Wayfinding.Text.Hex
