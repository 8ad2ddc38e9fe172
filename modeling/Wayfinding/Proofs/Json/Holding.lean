import Wayfinding.Proofs.Json.Transport

namespace Wayfinding

namespace Json

theorem roundBits_le (n : Nat) : roundBits n ≤ 2 * n := by
  by_cases hn : n = 0
  · subst hn
    decide
  · have hunit : 1 <<< (n.log2 - 52) ≤ n := by
      rw [Nat.one_shiftLeft]
      exact Nat.le_trans (Nat.pow_le_pow_right (by decide) (Nat.sub_le _ 52)) (Nat.log2_self_le hn)
    have hbelow := Nat.div_mul_le_self n (1 <<< (n.log2 - 52))
    unfold roundBits
    dsimp only
    split
    · rw [Nat.add_mul]
      omega
    · omega

theorem isFinite_word {n : Nat} (h : n < wordLimit) : Number.isFinite ⟨false, n, [], none⟩ = true := by
  have hsignificant : Number.significant ⟨false, n, [], none⟩ = (n, 0) := by
    have hcut : Number.cutWhole n = (n, 0) := by rw [Number.cutWhole, if_pos h]
    simp [Number.significant, hcut, Number.takeDigits]
  have hround := roundBits_le n
  have hlimit : 2 * wordLimit < Nat.pow 2 1024 - Nat.pow 2 970 := by decide +kernel
  have hone : roundBits (Nat.pow 10 0) = 1 := by decide
  simp only [Number.isFinite, hsignificant, Int.toNat_zero, hone, Nat.mul_one, decide_eq_true_eq]
  exact .inr (.inr ⟨by decide, by omega⟩)

theorem canHold_ofNat {n : Nat} (h : n < wordLimit) (budget : Nat) : canHold budget (.ofNat n) = true := by
  rw [Json.ofNat, canHold, isFinite_word h]

theorem canHold_ofString (text : String) (budget : Nat) : canHold budget (.ofString text) = true := rfl

theorem canHold_strings (texts : List String) (budget : Nat) :
    canHold budget (.array (texts.map .ofString)) = true ↔ 0 < budget := by
  have hall (budget : Nat) : canHoldAll budget (texts.map .ofString) = true := by
    induction texts with
    | nil => rfl
    | cons text rest ih => rw [List.map_cons, canHoldAll, canHold_ofString, ih, Bool.and_self]
  cases budget with
  | zero => simp [canHold]
  | succ budget => simp [canHold, hall]

theorem canHold_ofMembers (members : List (String × Json)) (budget : Nat) :
    canHold (budget + 1) (ofMembers members) = members.all fun member => canHold budget member.2 := by
  rw [ofMembers, canHold]
  induction members with
  | nil => rfl
  | cons member rest ih =>
    rw [List.map_cons, canHoldMembers, ih, canHoldMember, Option.isSome_some, Bool.true_and, List.all_cons]

theorem lookup_eq_head? (members : List (Option String × Json)) (key : Option String) :
    members.lookup key = ((members.filter fun entry => entry.1 = key).head?).map Prod.snd := by
  induction members with
  | nil => rfl
  | cons entry rest ih =>
    obtain ⟨name, value⟩ := entry
    by_cases hk : name = key
    · simp [hk]
    · have hne : (key == name) = false := by simpa using Ne.symm hk
      rw [List.lookup_cons, hne, List.filter_cons_of_neg (by simpa using hk), ih]

/-- Of members in another order the one with a key is the same, if there are no two of them. -/
theorem lookup_perm {members others : List (Option String × Json)} (h : members.Perm others)
    {key : Option String} (honce : (members.filter fun entry => entry.1 = key).length ≤ 1) :
    members.lookup key = others.lookup key := by
  have hfilter := h.filter fun entry => entry.1 = key
  rw [lookup_eq_head?, lookup_eq_head?]
  cases hm : members.filter fun entry => entry.1 = key with
  | nil =>
    rw [hm] at hfilter
    rw [hfilter.nil_eq.symm]
  | cons entry rest =>
    rw [hm] at hfilter honce
    obtain rfl : rest = [] := List.eq_nil_of_length_eq_zero (by simpa using honce)
    rw [List.singleton_perm.mp hfilter]

/-- The members of an object can come in any order. -/
theorem fields?_perm {members others : List (Option String × Json)} (h : members.Perm others)
    (names : List String) : (object members).fields? names = (object others).fields? names := by
  have hkeys : (∀ entry ∈ members, entry.1.isSome) ↔ ∀ entry ∈ others, entry.1.isSome :=
    forall_congr' fun entry => by rw [h.mem_iff]
  have honce (name : String) : (members.filter fun entry => entry.1 = some name).length =
      (others.filter fun entry => entry.1 = some name).length := (h.filter _).length_eq
  simp only [fields?, hkeys, honce]
  split
  · rename_i hread
    refine congrArg some (List.map_congr_left fun name hname => lookup_perm h ?_)
    rw [honce]
    exact hread.2 name hname
  · rfl

end Json

open Json

theorem LocaleMap.canHold_toJson (texts : LocaleMap) (budget : Nat) :
    canHold budget texts.toJson = true ↔ 0 < budget := by
  cases budget with
  | zero => simp [toJson, ofMembers, canHold]
  | succ budget => simp [toJson, canHold_ofMembers, canHold_ofString]

theorem Details.canHold_toMembers (details : Details) (tree : Json) (budget : Nat) :
    canHold (budget + 1) (.ofMembers (details.toMembers ++ [("tree", tree)])) = true ↔
      0 < budget ∧ canHold budget tree = true := by
  have hkind : canHold budget details.kind.toJson = true := canHold_ofString _ _
  have hflag : canHold budget (.bool details.initial) = true := by rw [canHold]
  simp [canHold_ofMembers, toMembers, canHold_ofString, hkind, hflag, LocaleMap.canHold_toJson]

namespace Item

mutual

/-- An item can be held back exactly if it is no deeper than the levels that are left. -/
theorem canHold_toJson : (item : Item) → (budget : Nat) →
    (canHold budget item.toJson = true ↔ item.toJson.depth ≤ budget)
  | item, 0 => by
    cases item <;> simp [toJson, ofMembers, canHold, depth]
  | .leaf details, budget + 1 => by
    rw [toJson, details.canHold_toMembers, ofMembers, depth, details.depthMembers_toMembers, depth, canHold,
      eq_self, and_true]
    omega
  | .group details children, budget + 1 => by
    rw [toJson, details.canHold_toMembers, ofMembers, depth, details.depthMembers_toMembers, depth]
    cases budget with
    | zero => simp
    | succ budget =>
      rw [canHold, canHoldAll_toJsonAll children budget]
      omega

theorem canHoldAll_toJsonAll : (items : List Item) → (budget : Nat) →
    (canHoldAll budget (toJsonAll items) = true ↔ depthAll (toJsonAll items) ≤ budget)
  | [], budget => by simp [toJsonAll, canHoldAll, depthAll]
  | item :: rest, budget => by
    rw [toJsonAll, canHoldAll, Bool.and_eq_true, canHold_toJson item, canHoldAll_toJsonAll rest, depthAll,
      Nat.max_le]

end

end Item

theorem Tree.canHold_toJson (tree : Tree) (budget : Nat) :
    canHold budget tree.toJson = true ↔ tree.toJson.depth ≤ budget := by
  rw [toJson, depth]
  cases budget with
  | zero => simp [canHold]
  | succ budget => rw [canHold, Item.canHoldAll_toJsonAll, Nat.succ_le_succ_iff]

end Wayfinding
