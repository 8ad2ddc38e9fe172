import Wayfinding.Proofs.Decoding
import Wayfinding.Wire.Snapshot

namespace Wayfinding

open Wire

theorem Identity.decodes_id (id : Identity) : Decodes ofWire id.toWire id := by
  intro rest
  have hl : id.bytes.length < wordLimit := by
    rw [id.length_eq]
    decide
  have hb : ofBytes? id.bytes = some id := dif_pos id.length_eq
  rw [toWire, List.append_assoc]
  simp only [ofWire, decodes_word hl _, decodes_bytes _ _, hb, bind, Except.bind]

namespace LocaleMap

theorem insertEntry_last {locale text : String} {entries : List (String × String)}
    (h : ∀ entry ∈ entries, entry.1 < locale) :
    insertEntry locale text entries = entries ++ [(locale, text)] := by
  induction entries with
  | nil => rfl
  | cons entry rest ih =>
    obtain ⟨he, hr⟩ := List.forall_mem_cons.mp h
    have hl : ¬locale < entry.1 := String.lt_asymm he
    have hn : ¬locale = entry.1 := by
      rintro rfl
      exact hl he
    rw [insertEntry, if_neg hl, if_neg hn, ih hr, List.cons_append]

theorem entries_foldl_insert {entries : List (String × String)} {texts : LocaleMap}
    (h : (texts.entries ++ entries).Pairwise fun a b => a.1 < b.1) :
    (entries.foldl (fun texts entry => texts.insert entry.1 entry.2) texts).entries =
      texts.entries ++ entries := by
  induction entries generalizing texts with
  | nil => exact (List.append_nil _).symm
  | cons entry rest ih =>
    have hb : ∀ other ∈ texts.entries, other.1 < entry.1 := by
      intro other ho
      exact (List.pairwise_append.mp h).2.2 other ho entry List.mem_cons_self
    have hi : (texts.insert entry.1 entry.2).entries = texts.entries ++ [entry] := insertEntry_last hb
    rw [List.append_cons, ← hi] at h ⊢
    exact ih h

theorem ofList_entries (texts : LocaleMap) : ofList texts.entries = texts := by
  have he : (ofList texts.entries).entries = texts.entries := entries_foldl_insert texts.ascending
  cases hm : ofList texts.entries
  rw [hm] at he
  subst he
  rfl

theorem decodes_texts {texts : LocaleMap} (h : texts.toWire.length < wordLimit) :
    Decodes ofWire texts.toWire texts := by
  have hs : (texts.entries.flatMap fun entry => writeText entry.1 ++ writeText entry.2).length <
      wordLimit := by
    rw [toWire, writeList, List.length_append] at h
    omega
  have hp : ∀ entry ∈ texts.entries, 0 < (writeText entry.1 ++ writeText entry.2).length := by
    intro entry _
    have hn := length_writeNumber_pos (textBytes entry.1).length
    simp only [writeText, List.length_append]
    omega
  have hl : texts.entries.length < wordLimit := Nat.lt_of_le_of_lt (length_le_flatMap hp) hs
  have hd : Decodes (readList (readPair readText readText)) texts.toWire texts.entries := by
    refine decodes_list hl ?_
    intro entry he
    have hb := Nat.lt_of_le_of_lt (length_le_flatMap_of_mem he) hs
    rw [List.length_append] at hb
    exact decodes_pair (decodes_text (by omega)) (decodes_text (by omega))
  intro rest
  simp only [ofWire, hd _, bind, Except.bind]
  rw [ofList_entries]
  rfl

end LocaleMap

theorem Kind.decodes_kind (kind : Kind) : Decodes ofWire kind.toWire kind := by
  intro rest
  cases kind with
  | label =>
    have h : Decodes readShortWord (writeNumber 0) 0 := decodes_number (by decide) (by decide)
    simp only [ofWire, toWire, h _, bind, Except.bind]
    rfl
  | staticLink =>
    have h : Decodes readShortWord (writeNumber 1) 1 := decodes_number (by decide) (by decide)
    simp only [ofWire, toWire, h _, bind, Except.bind]
    rfl

theorem Details.decodes_details {details : Details} (h : details.toWire.length < wordLimit) :
    Decodes ofWire details.toWire details := by
  intro rest
  simp only [toWire, List.length_append] at h
  have hi : Decodes readText (writeText details.id) details.id := decodes_text (by omega)
  have hk := details.kind.decodes_kind
  have hf : Decodes readFlag (writeFlag details.initial) details.initial := decodes_bit _ _
  have hp : Decodes LocaleMap.ofWire details.paths.toWire details.paths :=
    LocaleMap.decodes_texts (by omega)
  have hl : Decodes LocaleMap.ofWire details.labels.toWire details.labels :=
    LocaleMap.decodes_texts (by omega)
  simp only [toWire, List.append_assoc, ofWire, hi _, hk _, hf _, hp _, hl _, bind, Except.bind]
  rfl

namespace Item

theorem toWireAll_eq_flatMap (items : List Item) : toWireAll items = items.flatMap toWire := by
  induction items with
  | nil => rfl
  | cons item rest ih => rw [toWireAll, ih, List.flatMap_cons]

theorem length_toWire_pos (item : Item) : 0 < item.toWire.length := by
  cases item with
  | leaf details => simp [toWire]
  | group details children =>
    simp only [toWire, List.length_append, List.length_cons]
    omega

/-- What is read one by one is as long as the level says, if each item can be read. -/
theorem decodes_level {read : Reader Item} {items : List Item}
    (h : (toWireAll items).length < wordLimit) (hr : ∀ item ∈ items, Decodes read item.toWire item) :
    Decodes (readList read) (writeNumber items.length ++ toWireAll items) items := by
  rw [toWireAll_eq_flatMap] at h ⊢
  refine decodes_list ?_ hr
  exact Nat.lt_of_le_of_lt (length_le_flatMap fun item _ => item.length_toWire_pos) h

mutual

/-- An item takes more bytes than any of its children, so fuel for its bytes is fuel for its depth. -/
theorem decodes_item : (item : Item) → (fuel : Nat) → item.toWire.length ≤ fuel →
    item.toWire.length < wordLimit → Decodes (ofWire fuel) item.toWire item
  | item, 0, hf, _ => absurd item.length_toWire_pos (Nat.not_lt.mpr hf)
  | .leaf details, fuel + 1, _, hw => by
    intro rest
    have hl : details.toWire.length < wordLimit := by
      simp only [toWire, List.length_append] at hw
      omega
    have hd := Details.decodes_details hl
    have hb : Decodes (readBit .badChoice) [0] false := decodes_bit _ false
    simp only [toWire, List.append_assoc, ofWire, hd _, hb _, bind, Except.bind]
    rfl
  | .group details children, fuel + 1, hf, hw => by
    intro rest
    simp only [toWire, List.length_append, List.length_cons, List.length_nil] at hf hw
    have hd : Decodes Details.ofWire details.toWire details := Details.decodes_details (by omega)
    have hb : Decodes (readBit .badChoice) [1] true := decodes_bit _ true
    have hc : Decodes (readList (ofWire fuel)) (writeNumber children.length ++ toWireAll children)
        children := by
      refine decodes_level (by omega) ?_
      exact decodes_items children fuel (by omega) (by omega)
    simp only [toWire, List.append_assoc, ofWire, hd _, hb _, bind, Except.bind, if_true]
    rw [← List.append_assoc, hc]
    rfl

theorem decodes_items : (items : List Item) → (fuel : Nat) → (toWireAll items).length ≤ fuel →
    (toWireAll items).length < wordLimit → ∀ item ∈ items, Decodes (ofWire fuel) item.toWire item
  | [], _, _, _ => fun _ h => nomatch h
  | first :: rest, fuel, hf, hw => by
    simp only [toWireAll, List.length_append] at hf hw
    refine List.forall_mem_cons.mpr ⟨?_, ?_⟩
    · exact decodes_item first fuel (by omega) (by omega)
    · exact decodes_items rest fuel (by omega) (by omega)

end

end Item

theorem Tree.decodes_tree {tree : Tree} (h : tree.toWire.length < wordLimit) :
    Decodes ofWire tree.toWire tree := by
  intro rest
  rw [toWire, List.length_append] at h
  refine Item.decodes_level (by omega) ?_ rest
  refine Item.decodes_items tree _ ?_ (by omega)
  simp only [toWire, List.length_append]
  omega

theorem Snapshot.decodes_snapshot {state : Snapshot} (hv : state.version < wordLimit)
    (h : state.toWire.length < wordLimit) : Decodes ofWire state.toWire state := by
  intro rest
  simp only [toWire, List.length_append] at h
  have hi := state.id.decodes_id
  have hn : Decodes readText (writeText state.name) state.name := decodes_text (by omega)
  have ht : Decodes Tree.ofWire state.tree.toWire state.tree := Tree.decodes_tree (by omega)
  simp only [toWire, List.append_assoc, ofWire, hi _, decodes_word hv _, hn _, ht _, bind, Except.bind]
  rfl

namespace Navigation

/-- A machine can hold the version as a number of 64 bits, and the bytes as well. -/
structure Fits (nav : Navigation) : Prop where
  version : nav.version < wordLimit
  bytes : nav.toBytes.length < wordLimit

instance (nav : Navigation) : Decidable nav.Fits :=
  decidable_of_iff (nav.version < wordLimit ∧ nav.toBytes.length < wordLimit)
    ⟨fun h => ⟨h.1, h.2⟩, fun h => ⟨h.version, h.bytes⟩⟩

theorem ofBytes_toBytes {nav : Navigation} (h : nav.Fits) (rest : List UInt8) :
    ofBytes (nav.toBytes ++ rest) = .ok (ofSnapshot nav.toSnapshot) := by
  rw [ofBytes, toBytes, Snapshot.decodes_snapshot h.version h.bytes]

end Navigation

end Wayfinding
