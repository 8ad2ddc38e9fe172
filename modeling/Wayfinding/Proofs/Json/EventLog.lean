import Mathlib.Data.List.Forall2
import Wayfinding.Proofs.Json.Holding
import Wayfinding.Proofs.Replay

namespace Wayfinding

open Json

namespace Event

/-- A machine can hold the index of an insertion as a number of 64 bits. -/
def Fits : Event → Prop
  | itemsAdded _ index _ => index < wordLimit
  | _ => True

instance : DecidablePred Fits
  | itemsAdded _ index _ => inferInstanceAs (Decidable (index < wordLimit))
  | created _ => isTrue trivial
  | itemsRemoved _ => isTrue trivial
  | sorted _ _ => isTrue trivial

/-- The event with its payload in front of its type. -/
def payloadFirst (event : Event) : Json :=
  .ofMembers [("payload", .ofMembers event.payload), ("type", .ofString event.name)]

/-- A text says of an event what it is, in one of two orders. -/
inductive Spelled (event : Event) : String → Prop where
  | typeFirst : Spelled event event.toJson.text
  | payloadFirst : Spelled event event.payloadFirst.text

def ofJsonText? (text : String) : Option Event := (Json.parse? text).bind (ofJson? nestingLimit)

theorem texts?_strings (texts : List String) (budget : Nat) :
    texts? budget (.array (texts.map .ofString)) = if 1 ≤ budget then some texts else none := by
  have hmap : (texts.map Json.ofString).mapM text? = some texts := by
    induction texts with
    | nil => rfl
    | cons text rest ih =>
      rw [List.map_cons, List.mapM_cons, ih]
      rfl
  cases budget with
  | zero => rfl
  | succ budget =>
    rw [if_pos (Nat.le_add_left 1 budget)]
    exact hmap

theorem depthAll_strings (texts : List String) : depthAll (texts.map .ofString) = 0 := by
  induction texts with
  | nil => rfl
  | cons text rest ih => rw [List.map_cons, depthAll, ih, Json.ofString, depth, Nat.max_self]

/-- How deep a payload nests: nothing but items and lists of texts lies in it. -/
def payloadDepth : Event → Nat
  | created _ => 1
  | itemsAdded items _ _ => (Tree.toJson items).depth + 1
  | itemsRemoved _ => 2
  | sorted _ _ => 2

theorem depth_payload (event : Event) : (Json.ofMembers event.payload).depth = event.payloadDepth := by
  cases event <;>
    simp [payload, ofMembers, depth, depthMembers, Json.ofString, Json.ofNat, depthAll_strings, payloadDepth]

theorem depth_toJson (event : Event) : event.toJson.depth = event.payloadDepth + 1 := by
  rw [toJson, ofMembers, depth, List.map_cons, List.map_cons, List.map_nil, depthMembers, depthMembers,
    depthMembers, depth_payload, Json.ofString, depth, Nat.zero_max, Nat.max_zero]

theorem depth_payloadFirst (event : Event) : event.payloadFirst.depth = event.payloadDepth + 1 := by
  rw [payloadFirst, ofMembers, depth, List.map_cons, List.map_cons, List.map_nil, depthMembers,
    depthMembers, depthMembers, depth_payload, Json.ofString, depth, Nat.max_zero, Nat.max_zero]

/-- A payload is read by the type that it was written for, exactly if it is no deeper than the levels that are
left. -/
theorem ofPayload?_payload (held : Bool) {event : Event} (h : event.Fits) (budget : Nat) :
    ofPayload? held event.name budget (.ofMembers event.payload) =
      if event.payloadDepth ≤ budget then some event else none := by
  cases budget with
  | zero =>
    rw [if_neg (by cases event <;> simp [payloadDepth])]
    rfl
  | succ budget =>
    cases event with
    | created name =>
      have hfields : (Json.ofMembers (created name).payload).fields? ["name"] =
          some [some (.ofString name)] := fields?_ofMembers rfl (by decide)
      rw [ofMembers] at hfields ⊢
      simp [ofPayload?, Event.name, hfields, text?, Json.ofString, payloadDepth]
    | itemsAdded items index path =>
      have hfields : (Json.ofMembers (itemsAdded items index path).payload).fields?
          ["items", "index", "path"] =
            some [some (Tree.toJson items), some (.ofNat index), some (.ofString path)] :=
        fields?_ofMembers rfl (by decide)
      have hindex : (Json.ofNat index).word? = some index := if_pos h
      rw [ofMembers] at hfields ⊢
      simp [ofPayload?, Event.name, hfields, Tree.ofJson?_toJson, hindex, text?, Json.ofString, payloadDepth]
      split <;> rfl
    | itemsRemoved paths =>
      have hfields : (Json.ofMembers (itemsRemoved paths).payload).fields? ["items"] =
          some [some (.array (paths.map .ofString))] := fields?_ofMembers rfl (by decide)
      rw [ofMembers] at hfields ⊢
      simp [ofPayload?, Event.name, hfields, texts?_strings, payloadDepth]
      split <;> rfl
    | sorted sorting path =>
      have hfields : (Json.ofMembers (sorted sorting path).payload).fields? ["sorting", "path"] =
          some [some (.array (sorting.map .ofString)), some (.ofString path)] :=
        fields?_ofMembers rfl (by decide)
      rw [ofMembers] at hfields ⊢
      simp [ofPayload?, Event.name, hfields, texts?_strings, text?, Json.ofString, payloadDepth]
      split <;> rfl

/-- A payload can be held back exactly if it is no deeper than the levels that are left. -/
theorem canHold_payload {event : Event} (h : event.Fits) (budget : Nat) :
    canHold budget (.ofMembers event.payload) = true ↔ event.payloadDepth ≤ budget := by
  cases budget with
  | zero => cases event <;> simp [ofMembers, canHold, payloadDepth]
  | succ budget =>
    rw [canHold_ofMembers]
    cases event with
    | created name => simp [payload, canHold_ofString, payloadDepth]
    | itemsAdded items index path =>
      have hindex : canHold budget (.ofNat index) = true := canHold_ofNat h budget
      simp [payload, canHold_ofString, hindex, Tree.canHold_toJson, payloadDepth]
    | itemsRemoved paths => simp [payload, canHold_strings, payloadDepth, Nat.succ_le_iff]
    | sorted sorting path =>
      simp [payload, canHold_ofString, canHold_strings, payloadDepth, Nat.succ_le_iff]

theorem fields?_toJson (event : Event) : event.toJson.fields? ["type", "payload"] =
    some [some (.ofString event.name), some (.ofMembers event.payload)] := fields?_ofMembers rfl (by decide)

theorem fields?_payloadFirst (event : Event) : event.payloadFirst.fields? ["type", "payload"] =
    some [some (.ofString event.name), some (.ofMembers event.payload)] :=
  (fields?_perm (.swap _ _ _) _).trans event.fields?_toJson

/-- What an object with these two fields is read as hangs on which of them comes first. -/
theorem ofJson?_of_fields {members : List (Option String × Json)} {name : String} {payload : Json}
    (h : (Json.object members).fields? ["type", "payload"] = some [some (.ofString name), some payload])
    (budget : Nat) :
    ofJson? (budget + 1) (.object members) =
      if comesFirst "payload" "type" members ∧ ¬canHold budget payload then none
      else ofPayload? (comesFirst "payload" "type" members) name budget payload := by
  simp only [ofJson?, h, bind, Option.bind_some, choice?, Json.ofString]

theorem ofJson?_toJson {event : Event} (h : event.Fits) (budget : Nat) :
    ofJson? budget event.toJson = if event.toJson.depth ≤ budget then some event else none := by
  rw [depth_toJson]
  cases budget with
  | zero => rfl
  | succ budget =>
    rw [toJson, ofMembers, ofJson?_of_fields event.fields?_toJson]
    simp [comesFirst, ofPayload?_payload false h]

/-- An event with its payload in front is held back, and then read like the other. -/
theorem ofJson?_payloadFirst {event : Event} (h : event.Fits) (budget : Nat) :
    ofJson? budget event.payloadFirst = if event.payloadFirst.depth ≤ budget then some event else none := by
  rw [depth_payloadFirst]
  cases budget with
  | zero => rfl
  | succ budget =>
    rw [payloadFirst, ofMembers, ofJson?_of_fields event.fields?_payloadFirst]
    simp [comesFirst, canHold_payload h, ofPayload?_payload true h]

theorem Spelled.nesting {event : Event} {text : String} (h : event.Spelled text) :
    textNesting text = event.payloadDepth + 1 := by
  cases h with
  | typeFirst => rw [textNesting_text, depth_toJson]
  | payloadFirst => rw [textNesting_text, depth_payloadFirst]

theorem ofJsonText?_spelled {event : Event} (h : event.Fits) {text : String} (hs : event.Spelled text) :
    ofJsonText? text = if textNesting event.toJson.text ≤ 127 then some event else none := by
  rw [Spelled.typeFirst.nesting]
  cases hs with
  | typeFirst =>
    rw [ofJsonText?, parse?_text, Option.bind_some, ofJson?_toJson h, depth_toJson, nestingLimit]
  | payloadFirst =>
    rw [ofJsonText?, parse?_text, Option.bind_some, ofJson?_payloadFirst h, depth_payloadFirst, nestingLimit]

theorem mapM_spelled {events : List Event} {texts : List String} (hs : List.Forall₂ Spelled events texts)
    (h : ∀ event ∈ events, event.Fits ∧ textNesting event.toJson.text ≤ 127) :
    texts.mapM ofJsonText? = some events := by
  induction hs with
  | nil => rfl
  | cons hspelled _ ih =>
    obtain ⟨⟨hfits, hnesting⟩, hrest⟩ := List.forall_mem_cons.mp h
    rw [List.mapM_cons, ofJsonText?_spelled hfits hspelled, if_pos hnesting, ih hrest]
    rfl

end Event

namespace Course

/-- An event is read back from its text, in either order of its members, exactly if the text nests no deeper than
127 arrays and objects; so a recorded log leads to the navigation that recorded it. -/
theorem log_read_back :
    (∀ event : Event, event.Fits → ∀ text, event.Spelled text →
      Event.ofJsonText? text = if textNesting event.toJson.text ≤ 127 then some event else none) ∧
    ∀ id moves texts,
      let course := run id moves
      (∀ event ∈ course.log, event.Fits ∧ textNesting event.toJson.text ≤ 127) →
      List.Forall₂ Event.Spelled course.log texts →
      texts.mapM Event.ofJsonText? = some course.log ∧
        Navigation.ofEvents id course.log = .ofSnapshot course.navigation.toSnapshot := by
  refine ⟨fun event hfits text hspelled => Event.ofJsonText?_spelled hfits hspelled, ?_⟩
  intro id moves texts course h hspelled
  refine ⟨Event.mapM_spelled hspelled h, ?_⟩
  rw [Navigation.ofEvents, (faithful_run id moves).replayed]

/-- Every kind of event, an event handed over, and an intent that fails. -/
def tour : List Move :=
  [.attempt (.create "main" Sample.nestedItems), .drain,
   .attempt (.insertAt "bar.baz" 1 [.staticLink "link" "Link" "/a\"b"]), .attempt (.remove ["bar.baz.foo"]),
   .attempt (.remove ["bar.baz.link"]), .attempt (.sort ["bar"])]

theorem log_read_back_tour :
    (∀ event ∈ (run (.ofSeed 1) tour).log, event.Fits ∧ textNesting event.toJson.text ≤ 127) ∧
      ((run (.ofSeed 1) tour).log.map fun event => event.payloadFirst.text).mapM Event.ofJsonText? =
        some (run (.ofSeed 1) tour).log ∧
      Navigation.ofEvents (.ofSeed 1) (run (.ofSeed 1) tour).log =
        .ofSnapshot (run (.ofSeed 1) tour).navigation.toSnapshot := by
  have hlog : ∀ event ∈ (run (.ofSeed 1) tour).log, event.Fits ∧ textNesting event.toJson.text ≤ 127 := by
    simp only [textNesting_text]
    decide +kernel
  refine ⟨hlog, log_read_back.2 (.ofSeed 1) tour _ hlog ?_⟩
  exact List.forall₂_map_right_iff.mpr (List.forall₂_same.mpr fun event _ => .payloadFirst)

end Course

end Wayfinding
