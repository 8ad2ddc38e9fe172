namespace Wayfinding.Text

structure Range where
  first : Nat
  last : Nat
deriving DecidableEq, Repr

def inRanges (ranges : List Range) (c : Char) : Bool :=
  ranges.any fun range => range.first ≤ c.toNat && c.toNat ≤ range.last

/-- The 25 characters with the White_Space property. -/
def blankRanges : List Range :=
  [⟨0x09, 0x0D⟩, ⟨0x20, 0x20⟩, ⟨0x85, 0x85⟩, ⟨0xA0, 0xA0⟩, ⟨0x1680, 0x1680⟩, ⟨0x2000, 0x200A⟩,
   ⟨0x2028, 0x2029⟩, ⟨0x202F, 0x202F⟩, ⟨0x205F, 0x205F⟩, ⟨0x3000, 0x3000⟩]

def isBlank (c : Char) : Bool := inRanges blankRanges c

/-- The text without the blanks at its two ends. -/
def trim (text : String) : String :=
  String.ofList ((text.toList.dropWhile isBlank).reverse.dropWhile isBlank).reverse

theorem dropWhile_of_head {p : Char → Bool} {text : List Char} (h : ∀ c, text.head? = some c → p c = false) :
    text.dropWhile p = text := by
  cases text with
  | nil => rfl
  | cons c rest => rw [List.dropWhile_cons, h c rfl]; rfl

theorem head_dropWhile (p : Char → Bool) (text : List Char) (c : Char)
    (h : (text.dropWhile p).head? = some c) : p c = false := by
  have hnot := List.head?_dropWhile_not p text
  rw [h] at hnot
  exact hnot

theorem trim_trim (text : String) : trim (trim text) = trim text := by
  unfold trim
  rw [String.toList_ofList]
  generalize hfront : text.toList.dropWhile isBlank = front
  generalize hback : front.reverse.dropWhile isBlank = back
  -- A first character that is left was the first one before the end was trimmed.
  have hhead : ∀ c, back.reverse.head? = some c → isBlank c = false := by
    intro c hc
    have hprefix : back.reverse <+: front := by
      rw [← List.reverse_suffix, List.reverse_reverse, ← hback]
      exact List.dropWhile_suffix isBlank
    obtain ⟨rest, hrest⟩ := hprefix
    refine head_dropWhile isBlank text.toList c ?_
    rw [hfront, ← hrest, List.head?_append, hc]
    rfl
  have hlast : ∀ c, back.head? = some c → isBlank c = false := by
    intro c hc
    rw [← hback] at hc
    exact head_dropWhile isBlank front.reverse c hc
  rw [dropWhile_of_head hhead, List.reverse_reverse, dropWhile_of_head hlast]

end Wayfinding.Text
