import Wayfinding.Proofs.RoundTrip

namespace Wayfinding

namespace Wire

/-- Unless it runs out of bytes, `short` makes of them what `long` makes of the same bytes with more behind
them. -/
def Extends (short long : Reader α) : Prop :=
  ∀ bytes more, short bytes = .error .endOfInput ∨
    long (bytes ++ more) = (short bytes).map fun (value, rest) => (value, rest ++ more)

theorem extends_pure (value : α) : Extends (fun bytes => pure (value, bytes)) fun bytes => pure (value, bytes) :=
  fun _ _ => .inr rfl

theorem extends_error (fault : Fault) : Extends (α := α) (fun _ => .error fault) fun _ => .error fault :=
  fun _ _ => .inr rfl

theorem Extends.bind {first first' : Reader α} {next next' : α × List UInt8 → Except Fault (β × List UInt8)}
    (hf : Extends first first')
    (hn : ∀ a, Extends (fun bytes => next (a, bytes)) fun bytes => next' (a, bytes)) :
    Extends (fun bytes => first bytes >>= next) fun bytes => first' bytes >>= next' := by
  intro bytes more
  rcases hf bytes more with he | he
  · left
    simp only [he, Bind.bind, Except.bind]
  · cases hs : first bytes with
    | error fault =>
      right
      simp only [hs, he, Bind.bind, Except.bind, Except.map]
    | ok found =>
      obtain ⟨a, rest⟩ := found
      simp only [hs, he, Bind.bind, Except.bind, Except.map]
      exact hn a rest more

theorem extends_number (last places : Nat) : Extends (readNumber last places) (readNumber last places) := by
  induction places with
  | zero => exact extends_error _
  | succ places ih =>
    intro bytes more
    cases bytes with
    | nil => exact .inl rfl
    | cons byte rest =>
      simp only [List.cons_append, readNumber]
      split
      · right
        split <;> rfl
      · rcases ih rest more with he | he
        · left
          rw [he]
        · right
          rw [he]
          cases readNumber last places rest <;> rfl

theorem extends_bytes (count : Nat) : Extends (readBytes count) (readBytes count) := by
  intro bytes more
  unfold readBytes
  split
  · exact .inl rfl
  · rename_i hl
    have hcount : count ≤ bytes.length := Nat.not_lt.mp hl
    have hmore : ¬(bytes ++ more).length < count := by
      rw [List.length_append]
      omega
    right
    rw [if_neg hmore, List.take_append_of_le_length hcount, List.drop_append_of_le_length hcount]
    rfl

theorem extends_word : Extends readWord readWord := extends_number 1 10

theorem extends_text : Extends readText readText := by
  refine extends_word.bind fun count => ?_
  refine (extends_bytes count).bind fun content => ?_
  dsimp only
  cases ofTextBytes? content with
  | none => exact extends_error _
  | some text => exact extends_pure text

theorem extends_bit (fault : Fault) : Extends (readBit fault) (readBit fault) := by
  intro bytes more
  cases bytes with
  | nil => exact .inl rfl
  | cons byte rest =>
    right
    simp only [List.cons_append, readBit]
    split
    · rfl
    · split <;> rfl

theorem Extends.many {short long : Reader α} (h : Extends short long) (count : Nat) :
    Extends (readMany short count) (readMany long count) := by
  induction count with
  | zero => exact extends_pure []
  | succ count ih => exact h.bind fun value => ih.bind fun values => extends_pure _

theorem Extends.list {short long : Reader α} (h : Extends short long) :
    Extends (readList short) (readList long) := extends_word.bind fun count => h.many count

theorem extends_pair {first : Reader α} {second : Reader β} (hf : Extends first first)
    (hs : Extends second second) : Extends (readPair first second) (readPair first second) :=
  hf.bind fun a => hs.bind fun b => extends_pure (a, b)

end Wire

open Wire

theorem Identity.extends_id : Extends ofWire ofWire := by
  refine extends_word.bind fun count => ?_
  refine (extends_bytes count).bind fun content => ?_
  dsimp only
  cases ofBytes? content with
  | none => exact extends_error _
  | some id => exact extends_pure id

theorem LocaleMap.extends_texts : Extends ofWire ofWire :=
  (extends_pair extends_text extends_text).list.bind fun entries => extends_pure (ofList entries)

theorem Kind.extends_kind : Extends ofWire ofWire := by
  intro bytes more
  rcases extends_number 15 5 bytes more with he | he
  · left
    simp only [ofWire, readShortWord, he, bind, Except.bind]
  · right
    simp only [ofWire, readShortWord, he, bind, Except.bind]
    cases readNumber 15 5 bytes with
    | error fault => rfl
    | ok found =>
      obtain ⟨n, rest⟩ := found
      rcases n with _ | _ | n <;> rfl

theorem Details.extends_details : Extends ofWire ofWire := by
  refine extends_text.bind fun id => ?_
  refine Kind.extends_kind.bind fun kind => ?_
  refine (extends_bit .badFlag).bind fun initial => ?_
  refine LocaleMap.extends_texts.bind fun paths => ?_
  refine LocaleMap.extends_texts.bind fun labels => ?_
  exact extends_pure (mk id kind initial paths labels)

/-- More fuel only helps where bytes ran out. -/
theorem Item.extends_item {fuel fuel' : Nat} (h : fuel ≤ fuel') : Extends (ofWire fuel) (ofWire fuel') := by
  induction fuel generalizing fuel' with
  | zero => exact fun _ _ => .inl rfl
  | succ fuel ih =>
    cases fuel' with
    | zero => exact absurd h (Nat.not_succ_le_zero fuel)
    | succ fuel' =>
      have hchild := ih (Nat.le_of_succ_le_succ h)
      refine Details.extends_details.bind fun details => ?_
      refine (extends_bit .badChoice).bind fun isGroup => ?_
      cases isGroup with
      | false => exact extends_pure (leaf details)
      | true => exact hchild.list.bind fun children => extends_pure (group details children)

theorem Tree.extends_tree : Extends ofWire ofWire := by
  intro bytes more
  have hfuel : bytes.length + 1 ≤ (bytes ++ more).length + 1 := by
    rw [List.length_append]
    omega
  exact (Item.extends_item hfuel).list bytes more

theorem Snapshot.extends_snapshot : Extends ofWire ofWire := by
  refine Identity.extends_id.bind fun id => ?_
  refine extends_word.bind fun version => ?_
  refine extends_text.bind fun name => ?_
  refine Tree.extends_tree.bind fun tree => ?_
  exact extends_pure (mk id version name tree)

namespace Navigation

/-- The bytes of a navigation say where they end: whatever follows is left alone, and without the last of
them there is no navigation. -/
theorem bytes_delimited {nav : Navigation} (h : nav.Fits) :
    (∀ more, ofBytes (nav.toBytes ++ more) = .ok (ofSnapshot nav.toSnapshot)) ∧
      ∀ front, front <+: nav.toBytes → front ≠ nav.toBytes →
        ofBytes front = .error (.encoding Fault.endOfInput.message) := by
  refine ⟨ofBytes_toBytes h, ?_⟩
  rintro front ⟨more, hwhole⟩ hne
  have hmore : more ≠ [] := by
    rintro rfl
    exact hne (by simpa using hwhole)
  have hread := Snapshot.decodes_snapshot h.version h.bytes []
  rw [List.append_nil, ← toBytes, ← hwhole] at hread
  rcases Snapshot.extends_snapshot front more with he | he
  · rw [ofBytes, he]
  · -- A reader that did not run out would have left the bytes that were cut off.
    rw [hread] at he
    cases hs : Snapshot.ofWire front with
    | error fault => simp [hs, Except.map] at he
    | ok found => simp [hs, Except.map, hmore] at he

/-- A version and a name that take more than one byte each, and an event that waits to be saved. -/
def wideNavigation : Navigation where
  id := .ofSeed 1
  version := 300
  name := "Menü"
  tree := Sample.nestedItems
  uncommitted := [.created "Menü"]

theorem bytes_delimited_wide :
    wideNavigation.Fits ∧
      ofBytes (wideNavigation.toBytes ++ [0xFF]) = .ok (ofSnapshot wideNavigation.toSnapshot) ∧
      ofBytes (wideNavigation.toBytes.take 18) = .error (.encoding Fault.endOfInput.message) := by
  have fits : wideNavigation.Fits := by decide +kernel
  have cut : wideNavigation.toBytes.take 18 ≠ wideNavigation.toBytes := by decide +kernel
  obtain ⟨whole, front⟩ := bytes_delimited fits
  exact ⟨fits, whole [0xFF], front _ (List.take_prefix 18 _) cut⟩

end Navigation

end Wayfinding
