import Wayfinding.Wire
import Wayfinding.Json

namespace Wayfinding.Wire

/-- The reader takes exactly these bytes from the front, whatever follows, and makes this value of them. -/
def Decodes (read : Reader α) (bytes : List UInt8) (value : α) : Prop :=
  ∀ rest, read (bytes ++ rest) = .ok (value, rest)

/-- The numbers that this many bytes can hold are below this one. -/
def numberLimit (last : Nat) : Nat → Nat
  | 0 => 0
  | 1 => last + 1
  | places + 2 => 128 * numberLimit last (places + 1)

theorem toNat_ofNat {n : Nat} (h : n < 256) : (UInt8.ofNat n).toNat = n := by
  rw [UInt8.toNat_ofNat']
  exact Nat.mod_eq_of_lt h

theorem length_writeNumber_pos (n : Nat) : 0 < (writeNumber n).length := by
  rw [writeNumber]
  split <;> exact Nat.zero_lt_succ _

theorem decodes_number {last : Nat} (hl : last < 128) {places n : Nat} (h : n < numberLimit last places) :
    Decodes (readNumber last places) (writeNumber n) n := by
  induction places generalizing n with
  | zero => exact absurd h (Nat.not_lt_zero n)
  | succ places ih =>
    intro rest
    rw [writeNumber]
    split
    · rename_i hs
      have hb : (UInt8.ofNat n).toNat = n := toNat_ofNat (by omega)
      have hf : ¬(places = 0 ∧ last < n) := by
        rintro ⟨rfl, ho⟩
        have hn : n < last + 1 := h
        omega
      simp only [List.cons_append, List.nil_append, readNumber, hb, if_pos hs, if_neg hf]
    · rename_i hs
      have hb : (UInt8.ofNat (n % 128 + 128)).toNat = n % 128 + 128 := toNat_ofNat (by omega)
      have hh : n / 128 < numberLimit last places := by
        cases places with
        | zero =>
          have hn : n < last + 1 := h
          omega
        | succ places =>
          have hn : n < 128 * numberLimit last (places + 1) := h
          omega
      have hc : ¬n % 128 + 128 < 128 := by omega
      simp only [List.cons_append, readNumber, hb, if_neg hc, ih hh rest, Except.ok.injEq, Prod.mk.injEq,
        and_true]
      omega

theorem decodes_word {n : Nat} (h : n < wordLimit) : Decodes readWord (writeNumber n) n :=
  decodes_number (by decide) h

theorem decodes_bytes (content : List UInt8) : Decodes (readBytes content.length) content content := by
  intro rest
  have hl : ¬(content ++ rest).length < content.length := by
    rw [List.length_append]
    omega
  rw [readBytes, if_neg hl, List.take_left, List.drop_left]

theorem ofTextBytes?_textBytes (text : String) : ofTextBytes? (textBytes text) = some text := by
  have hb : (⟨text.toUTF8.data.toList.toArray⟩ : ByteArray) = text.toUTF8 := by simp
  rw [ofTextBytes?, textBytes, hb, String.fromUTF8?, String.toUTF8_eq_toByteArray, dif_pos text.isValidUTF8]
  rfl

theorem decodes_text {text : String} (h : (writeText text).length < wordLimit) :
    Decodes readText (writeText text) text := by
  intro rest
  have hl : (textBytes text).length < wordLimit := by
    rw [writeText, List.length_append] at h
    omega
  rw [writeText, List.append_assoc]
  simp only [readText, decodes_word hl _, decodes_bytes _ _, ofTextBytes?_textBytes, bind, Except.bind]

theorem decodes_bit (fault : Fault) (flag : Bool) : Decodes (readBit fault) (writeFlag flag) flag := by
  intro rest
  cases flag <;> rfl

theorem decodes_pair {first : Reader α} {second : Reader β} {as bs : List UInt8} {a : α} {b : β}
    (ha : Decodes first as a) (hb : Decodes second bs b) :
    Decodes (readPair first second) (as ++ bs) (a, b) := by
  intro rest
  rw [List.append_assoc]
  simp only [readPair, ha _, hb _, bind, Except.bind]
  rfl

theorem decodes_many {read : Reader α} {write : α → List UInt8} {values : List α}
    (h : ∀ value ∈ values, Decodes read (write value) value) :
    Decodes (readMany read values.length) (values.flatMap write) values := by
  induction values with
  | nil => exact fun _ => rfl
  | cons value values ih =>
    obtain ⟨hv, hvs⟩ := List.forall_mem_cons.mp h
    intro rest
    rw [List.flatMap_cons, List.append_assoc]
    simp only [List.length_cons, readMany, hv _, ih hvs _, bind, Except.bind]
    rfl

theorem decodes_list {read : Reader α} {write : α → List UInt8} {values : List α}
    (hl : values.length < wordLimit) (h : ∀ value ∈ values, Decodes read (write value) value) :
    Decodes (readList read) (writeList write values) values := by
  intro rest
  rw [writeList, List.append_assoc]
  simp only [readList, decodes_word hl _, bind, Except.bind]
  exact decodes_many h rest

theorem length_le_flatMap {write : α → List UInt8} {values : List α}
    (h : ∀ value ∈ values, 0 < (write value).length) : values.length ≤ (values.flatMap write).length := by
  induction values with
  | nil => exact Nat.zero_le _
  | cons value values ih =>
    obtain ⟨hv, hvs⟩ := List.forall_mem_cons.mp h
    have hr := ih hvs
    rw [List.flatMap_cons, List.length_append, List.length_cons]
    omega

theorem length_le_flatMap_of_mem {write : α → List UInt8} {values : List α} {value : α}
    (h : value ∈ values) : (write value).length ≤ (values.flatMap write).length := by
  induction values with
  | nil => cases h
  | cons first values ih =>
    rw [List.flatMap_cons, List.length_append]
    rcases List.mem_cons.mp h with rfl | h
    · omega
    · have hr := ih h
      omega

end Wayfinding.Wire
