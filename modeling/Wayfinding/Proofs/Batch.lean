import Wayfinding.Proofs.Interchange

namespace Wayfinding

namespace Tree

theorem setInitial_append (front back : List Item) (flag : Bool) :
    Tree.setInitial (front ++ back) flag = Tree.setInitial front flag ++ Tree.setInitial back flag := by
  simp only [setInitial_eq_map, List.map_append]

/-- Items in two parts go where they would go at once, also behind the end of the level. -/
theorem insert_append (level : Tree) (index : Nat) (front back : List Item) :
    (level.insert index front).insert (index + front.length) back = level.insert index (front ++ back) := by
  by_cases h : index ≤ level.length
  · have hfront : (level.take index ++ front).length = index + front.length := by
      rw [List.length_append, List.length_take, Nat.min_eq_left h]
    rw [insert, insert, insert, ← hfront, List.take_left, List.drop_left]
    simp only [List.append_assoc]
  · have hbehind : level.length ≤ index := Nat.le_of_not_le h
    have hall : (level ++ front).length ≤ index + front.length := by
      rw [List.length_append]
      omega
    simp only [insert, List.take_of_length_le hbehind, List.drop_of_length_le hbehind, List.append_nil,
      List.take_of_length_le hall, List.drop_of_length_le hall, List.append_assoc]

theorem wellFormed_append {front back : List Item} :
    WellFormed (front ++ back) ↔
      WellFormed front ∧ WellFormed back ∧ ∀ item ∈ back, item.id ∉ ids front := by
  constructor
  · intro h
    refine ⟨h.sublist (List.sublist_append_left ..), h.sublist (List.sublist_append_right ..), ?_⟩
    intro item hm he
    have hn := h.distinct
    rw [ids, List.map_append, List.nodup_append] at hn
    exact hn.2.2 _ he _ (List.mem_map_of_mem hm) rfl
  · rintro ⟨hfront, hback, hnew⟩
    exact hfront.append hback hnew

theorem mem_ids_insert {level : Tree} {index : Nat} {items : List Item} {id : String} :
    id ∈ (level.insert index items).ids ↔ id ∈ level.ids ∨ id ∈ ids items := by
  have hp := (insert_perm level index items).map Item.id
  rw [List.map_append] at hp
  exact hp.mem_iff.trans List.mem_append

/-- The IDs of a batch, at every depth, are addressable and differ from their siblings', old ones included. -/
def Takes (level : Tree) (items : List Item) : Prop := WellFormed items ∧ ∀ item ∈ items, item.id ∉ level.ids

theorem takes_nil (level : Tree) : level.Takes [] := ⟨wellFormed_nil, by simp⟩

/-- What a part of a batch differs from within the batch it differs from in the level, once the other part is in. -/
theorem takes_append (level : Tree) (index : Nat) (front back : List Item) :
    level.Takes (front ++ back) ↔
      level.Takes front ∧ (level.insert index (Tree.setInitial front false)).Takes back := by
  simp only [Takes, wellFormed_append, mem_ids_insert, ids_setInitial, not_or, List.forall_mem_append]
  constructor
  · rintro ⟨⟨hfront, hback, hnew⟩, hfrontNew, hbackNew⟩
    exact ⟨⟨hfront, hfrontNew⟩, hback, fun item hm => ⟨hbackNew item hm, hnew item hm⟩⟩
  · rintro ⟨⟨hfront, hfrontNew⟩, hback, hnew⟩
    exact ⟨⟨hfront, hback, fun item hm => (hnew item hm).2⟩, hfrontNew, fun item hm => (hnew item hm).1⟩

theorem insert_nil (level : Tree) (index : Nat) : level.insert index [] = level := by
  rw [insert, List.append_nil, List.take_append_drop]

theorem length_insert (level : Tree) (index : Nat) (items : List Item) :
    (level.insert index items).length = level.length + items.length :=
  (insert_perm level index items).length_eq.trans List.length_append

end Tree

theorem Item.fill_fill (first second : Tree → Tree) (item : Item) :
    (item.fill first).fill second = item.fill (second ∘ first) := by
  cases item <;> rfl

/-- A batch that comes in below an item is its first part and then, behind that, its second part. -/
theorem Edit.act_append (level : Tree) (path : String) (index : Nat) (front back : List Item) :
    let place := min index level.length
    let between := level.insert place (Tree.setInitial front false)
    (insertion path index (front ++ back)).act level =
      (insertion path ((place + front.length : Nat) : Int) back).act between ∘ (insertion path index front).act level := by
  intro place between
  have hlength : between.length = level.length + front.length := by
    rw [Tree.length_insert, Tree.setInitial_eq_map, List.length_map]
  have hbehind : min (place + front.length) between.length = place + front.length := by omega
  simp only [act, event?, Navigation.insertion, Int.toNat_natCast, hbehind]
  by_cases hfront : front = []
  · subst hfront
    simp only [List.nil_append, List.length_nil, Nat.add_zero]
    rfl
  by_cases hback : back = []
  · subst hback
    simp only [List.append_nil]
    rfl
  have hboth : front ++ back ≠ [] := by simp [hfront]
  funext item
  simp only [hfront, hback, hboth, if_false, Option.elim, Function.comp_apply, Event.act, Item.fill_fill]
  refine congrArg item.fill (funext fun children => ?_)
  have hfill := Tree.insert_append children place (Tree.setInitial front false) (Tree.setInitial back false)
  rw [Tree.setInitial_eq_map front, List.length_map, ← Tree.setInitial_eq_map] at hfill
  rw [Function.comp_apply, hfill, Tree.setInitial_append]

namespace Navigation

variable {nav : Navigation} {path : String} {level : Tree}

/-- An index that is not negative leaves it to the level and the batch whether the insertion is accepted. -/
theorem insertAt_iff {index : Nat} {items : List Item} {after : Navigation} (found : nav.tree.level path = .ok level) :
    nav.insertAt path index items = .ok after ↔
      level.Takes items ∧ after = nav.recordAll ((Edit.insertion path index items).event? level).toList := by
  constructor
  · intro h
    obtain ⟨read, hread, ⟨_, hbatch⟩, rfl⟩ := (perform_edit (.insertion path index items)).mp h
    cases found.symm.trans hread
    refine ⟨hbatch.elim ?_ id, rfl⟩
    rintro rfl
    exact level.takes_nil
  · rintro ⟨hbatch, rfl⟩
    exact (perform_edit (.insertion path index items)).mpr
      ⟨level, found, ⟨Int.natCast_nonneg index, .inr hbatch⟩, rfl⟩

theorem level_after_insertion (index : Nat) (items : List Item) (found : nav.tree.level path = .ok level) :
    (nav.recordAll ((Edit.insertion path index items).event? level).toList).tree.level path =
      .ok (level.insert (min index level.length) (Tree.setInitial items false)) := by
  simp only [Edit.event?]
  split
  · rename_i hnone
    subst hnone
    exact found.trans (congrArg Except.ok (Tree.insert_nil level _).symm)
  · obtain ⟨_, _, hl, _⟩ :=
      @tree_record_itemsAdded nav path level (Tree.setInitial items false) (min index level.length) found
    exact hl

end Navigation

/-- A batch is its parts: it is accepted exactly if its first part is and then, right behind that, its second part,
wherever it is cut. Both ways lead to the same tree and name. -/
theorem Course.batch_in_parts (id : Identity) (moves : List Move) (path : String) (index : Nat)
    (front back : List Item) :
    let nav := (run id moves).navigation
    let behind := fun level : Tree => ((min index level.length + front.length : Nat) : Int)
    ((∃ whole, nav.insertAt path index (front ++ back) = .ok whole) ↔
      ∃ level first second, nav.tree.level path = .ok level ∧ nav.insertAt path index front = .ok first ∧
        first.insertAt path (behind level) back = .ok second) ∧
    ∀ level whole first second, nav.tree.level path = .ok level →
      nav.insertAt path index (front ++ back) = .ok whole → nav.insertAt path index front = .ok first →
      first.insertAt path (behind level) back = .ok second →
      second.tree = whole.tree ∧ second.name = whole.name := by
  intro nav behind
  have hw : nav.tree.WellFormed := wellFormed_run id moves
  refine ⟨⟨?_, ?_⟩, ?_⟩
  · rintro ⟨whole, h⟩
    obtain ⟨level, found, _⟩ := (Navigation.perform_edit (.insertion path index (front ++ back))).mp h
    have hbetween := Navigation.level_after_insertion index front found
    obtain ⟨hfront, hback⟩ := (level.takes_append _ front back).mp ((Navigation.insertAt_iff found).mp h).1
    exact ⟨level, _, _, found, (Navigation.insertAt_iff found).mpr ⟨hfront, rfl⟩,
      (Navigation.insertAt_iff hbetween).mpr ⟨hback, rfl⟩⟩
  · rintro ⟨level, first, second, found, hfirst, hsecond⟩
    have hbetween := Navigation.level_after_insertion index front found
    obtain ⟨hfront, rfl⟩ := (Navigation.insertAt_iff found).mp hfirst
    obtain ⟨hback, -⟩ := (Navigation.insertAt_iff hbetween).mp hsecond
    exact ⟨_, (Navigation.insertAt_iff found).mpr ⟨(level.takes_append _ front back).mpr ⟨hfront, hback⟩, rfl⟩⟩
  · intro level whole first second found hwhole hfirst hsecond
    have hbetween := Navigation.level_after_insertion index front found
    obtain ⟨-, rfl⟩ := (Navigation.insertAt_iff found).mp hwhole
    have hone : first.tree.WellFormed := Navigation.wellFormed_perform hw (.insertAt path index front) hfirst
    obtain ⟨-, rfl⟩ := (Navigation.insertAt_iff found).mp hfirst
    obtain ⟨-, rfl⟩ := (Navigation.insertAt_iff hbetween).mp hsecond
    obtain ⟨ids, hc, -⟩ := Tree.chain_of_level found
    refine ⟨?_, by simp only [Navigation.name_edit]⟩
    have hsecond := Navigation.rooted_edit (.insertion path (behind level) back) hone hbetween hc
    have hfirst := Navigation.rooted_edit (.insertion path index front) hw found hc
    have hwhole := Navigation.rooted_edit (.insertion path index (front ++ back)) hw found hc
    rw [hfirst, Item.adjust_adjust (Edit.id_act _ _), ← Edit.act_append, ← hwhole] at hsecond
    exact congrArg Item.sublevel hsecond

end Wayfinding
