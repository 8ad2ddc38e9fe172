import Wayfinding.Proofs.Truncation

namespace Wayfinding

namespace Wire

/-- What is read takes at least so many bytes. -/
def Takes (least : Nat) (read : Reader α) : Prop :=
  ∀ bytes value rest, read bytes = .ok (value, rest) → rest.length + least ≤ bytes.length

theorem takes_pure (value : α) : Takes 0 fun bytes => pure (value, bytes) := by
  rintro bytes _ rest h
  cases h
  exact Nat.le_refl _

theorem takes_error (least : Nat) (fault : Fault) : Takes (α := α) least fun _ => .error fault := by
  rintro _ _ _ h
  cases h

theorem Takes.weaken {least : Nat} {read : Reader α} (h : Takes least read) : Takes 0 read := by
  intro bytes value rest hread
  have htaken := h bytes value rest hread
  omega

theorem Takes.bind {least : Nat} {first : Reader α} {next : α × List UInt8 → Except Fault (β × List UInt8)}
    (hf : Takes least first) (hn : ∀ a, Takes 0 fun bytes => next (a, bytes)) :
    Takes least fun bytes => first bytes >>= next := by
  intro bytes value rest h
  cases hs : first bytes with
  | error fault => simp [hs, Bind.bind, Except.bind] at h
  | ok found =>
    obtain ⟨a, between⟩ := found
    simp only [hs, Bind.bind, Except.bind] at h
    have hfirst := hf bytes a between hs
    have hnext := hn a between value rest h
    omega

theorem takes_number (last places : Nat) : Takes 1 (readNumber last places) := by
  induction places with
  | zero => exact takes_error 1 _
  | succ places ih =>
    intro bytes value rest h
    cases bytes with
    | nil => cases h
    | cons byte bytes =>
      simp only [readNumber] at h
      split at h
      · split at h
        · cases h
        · cases h
          exact Nat.le_refl _
      · split at h
        · rename_i high behind hhigh
          cases h
          have hless := ih bytes high rest hhigh
          rw [List.length_cons]
          omega
        · cases h

theorem takes_word : Takes 1 readWord := takes_number 1 10

theorem takes_bytes (count : Nat) : Takes 0 (readBytes count) := by
  intro bytes value rest h
  unfold readBytes at h
  split at h
  · cases h
  · cases h
    rw [List.length_drop]
    omega

theorem takes_text : Takes 1 readText := by
  refine takes_word.bind fun count => ?_
  refine (takes_bytes count).bind fun content => ?_
  dsimp only
  cases ofTextBytes? content with
  | none => exact takes_error 0 _
  | some text => exact takes_pure text

theorem takes_bit (fault : Fault) : Takes 1 (readBit fault) := by
  intro bytes value rest h
  cases bytes with
  | nil => cases h
  | cons byte bytes =>
    simp only [readBit] at h
    split at h
    · cases h
      exact Nat.le_refl _
    · split at h <;> cases h
      exact Nat.le_refl _

theorem Takes.many {read : Reader α} (h : Takes 0 read) (count : Nat) : Takes 0 (readMany read count) := by
  induction count with
  | zero => exact takes_pure []
  | succ count ih => exact h.bind fun value => ih.bind fun values => takes_pure _

theorem Takes.list {read : Reader α} (h : Takes 0 read) : Takes 1 (readList read) :=
  takes_word.bind fun count => h.many count

theorem takes_pair {least : Nat} {first : Reader α} {second : Reader β} (hf : Takes least first)
    (hs : Takes 0 second) : Takes least (readPair first second) :=
  hf.bind fun a => hs.bind fun b => takes_pure (a, b)

/-- Of elements that take bytes there are no more than bytes. So a list can be cut to any number beyond that of
its bytes: whatever number of elements it claims, it fails before the cut is reached. -/
theorem Takes.many_bounded {read : Reader α} (h : Takes 1 read) (count : Nat) {bytes : List UInt8}
    {bound : Nat} (hb : bytes.length < bound) :
    readMany read count bytes = readMany read (min count bound) bytes := by
  induction count generalizing bytes bound with
  | zero => rw [Nat.zero_min]
  | succ count ih =>
    cases bound with
    | zero => exact absurd hb (Nat.not_lt_zero _)
    | succ bound =>
      rw [Nat.succ_min_succ, readMany, readMany]
      cases hread : read bytes with
      | error fault => rfl
      | ok found =>
        obtain ⟨value, rest⟩ := found
        have hless := h bytes value rest hread
        have hrest : readMany read count rest = readMany read (min count bound) rest := ih (by omega)
        simp only [Bind.bind, Except.bind, hrest]

/-- Two readers that agree on all shorter bytes read the same lists. -/
theorem readMany_congr {read read' : Reader α} (ht : Takes 0 read) {limit : Nat}
    (h : ∀ bytes, bytes.length ≤ limit → read bytes = read' bytes) (count : Nat) {bytes : List UInt8}
    (hb : bytes.length ≤ limit) : readMany read count bytes = readMany read' count bytes := by
  induction count generalizing bytes with
  | zero => rfl
  | succ count ih =>
    rw [readMany, readMany, ← h bytes hb]
    cases hread : read bytes with
    | error fault => rfl
    | ok found =>
      obtain ⟨value, rest⟩ := found
      have hless := ht bytes value rest hread
      have hrest : readMany read count rest = readMany read' count rest := ih (by omega)
      simp only [Bind.bind, Except.bind, hrest]

theorem readList_congr {read read' : Reader α} (ht : Takes 0 read) {bytes : List UInt8}
    (h : ∀ shorter, shorter.length ≤ bytes.length → read shorter = read' shorter) :
    readList read bytes = readList read' bytes := by
  unfold readList
  cases hread : readWord bytes with
  | error fault => rfl
  | ok found =>
    obtain ⟨count, rest⟩ := found
    have hless := takes_word bytes count rest hread
    simp only [Bind.bind, Except.bind]
    exact readMany_congr ht h count (by omega)

end Wire

open Wire

theorem LocaleMap.takes_texts : Takes 1 ofWire :=
  (takes_pair takes_text takes_text.weaken).weaken.list.bind fun entries => takes_pure (ofList entries)

theorem Kind.takes_kind : Takes 1 ofWire := by
  intro bytes value rest h
  simp only [ofWire, readShortWord, bind, Except.bind] at h
  cases hn : readNumber 15 5 bytes with
  | error fault => simp [hn] at h
  | ok found =>
    obtain ⟨n, behind⟩ := found
    have hless := takes_number 15 5 bytes n behind hn
    rw [hn] at h
    rcases n with _ | _ | n <;> cases h <;> exact hless

/-- The details of an item take at least the length of its ID. -/
theorem Details.takes_details : Takes 1 ofWire := by
  refine takes_text.bind fun id => ?_
  refine Kind.takes_kind.weaken.bind fun kind => ?_
  refine (takes_bit .badFlag).weaken.bind fun initial => ?_
  refine LocaleMap.takes_texts.weaken.bind fun paths => ?_
  refine LocaleMap.takes_texts.weaken.bind fun labels => ?_
  exact takes_pure (mk id kind initial paths labels)

namespace Item

theorem takes_item (fuel : Nat) : Takes 1 (ofWire fuel) := by
  induction fuel with
  | zero => exact takes_error 1 _
  | succ fuel ih =>
    refine Details.takes_details.bind fun details => ?_
    refine (takes_bit .badChoice).weaken.bind fun isGroup => ?_
    cases isGroup with
    | false => exact takes_pure (leaf details)
    | true => exact ih.weaken.list.weaken.bind fun children => takes_pure (group details children)

/-- Items are nested no deeper than there are bytes, so all allowances beyond that are one. -/
theorem ofWire_bounded {fuel fuel' : Nat} {bytes : List UInt8} (h : bytes.length < fuel)
    (h' : bytes.length < fuel') : ofWire fuel bytes = ofWire fuel' bytes := by
  induction fuel generalizing fuel' bytes with
  | zero => exact absurd h (Nat.not_lt_zero _)
  | succ fuel ih =>
    cases fuel' with
    | zero => exact absurd h' (Nat.not_lt_zero _)
    | succ fuel' =>
      rw [ofWire, ofWire]
      cases hd : Details.ofWire bytes with
      | error fault => rfl
      | ok found =>
        obtain ⟨details, rest⟩ := found
        have hdetails := Details.takes_details bytes details rest hd
        simp only [Bind.bind, Except.bind]
        cases hf : readBit .badChoice rest with
        | error fault => rfl
        | ok found =>
          obtain ⟨isGroup, behind⟩ := found
          have hflag := takes_bit .badChoice rest isGroup behind hf
          have hchildren : readList (ofWire fuel) behind = readList (ofWire fuel') behind := by
            refine readList_congr (takes_item fuel).weaken fun shorter hs => ?_
            exact ih (by omega) (by omega)
          simp only [hchildren]

end Item

namespace Navigation

/-- Bytes that ran out apart, what is found in some bytes is found whatever follows them. -/
theorem ofBytes_append (bytes more : List UInt8) :
    ofBytes bytes = .error (.encoding Fault.endOfInput.message) ∨ ofBytes (bytes ++ more) = ofBytes bytes := by
  rcases Snapshot.extends_snapshot bytes more with he | he
  · left
    rw [ofBytes, he]
  · right
    rw [ofBytes, ofBytes, he]
    cases Snapshot.ofWire bytes <;> rfl

/-- A navigation that is found in bytes, and a fault that is found in them, is found whatever follows; only bytes
that ran out can be mended. -/
theorem verdict_final (bytes more : List UInt8) :
    (∀ nav, ofBytes bytes = .ok nav → ofBytes (bytes ++ more) = .ok nav) ∧
    (∀ error, ofBytes bytes = .error error → error ≠ .encoding Fault.endOfInput.message →
      ofBytes (bytes ++ more) = .error error) ∧
    (∀ fuel, bytes.length < fuel → readList (Item.ofWire fuel) bytes = Tree.ofWire bytes) ∧
    ∀ bound, bytes.length < bound → ∀ count,
      (∀ fuel, readMany (Item.ofWire fuel) count bytes =
        readMany (Item.ofWire fuel) (min count bound) bytes) ∧
      readMany (readPair readText readText) count bytes =
        readMany (readPair readText readText) (min count bound) bytes := by
  refine ⟨?_, ?_, ?_, ?_⟩
  · intro nav hok
    rcases ofBytes_append bytes more with hend | hsame
    · rw [hok] at hend
      cases hend
    · rw [hsame, hok]
  · intro error herror hcontent
    rcases ofBytes_append bytes more with hend | hsame
    · rw [herror] at hend
      exact absurd (Except.error.inj hend) hcontent
    · rw [hsame, herror]
  · intro fuel hfuel
    refine readList_congr (Item.takes_item fuel).weaken fun shorter hs => ?_
    exact Item.ofWire_bounded (by omega) (by omega)
  · intro bound hbound count
    refine ⟨fun fuel => (Item.takes_item fuel).many_bounded count hbound, ?_⟩
    exact (takes_pair takes_text takes_text.weaken).many_bounded count hbound

end Navigation

end Wayfinding
