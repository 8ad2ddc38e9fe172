import Wayfinding.Proofs.Adjusting
import Wayfinding.Proofs.Insertion
import Wayfinding.Proofs.Sorting

namespace Wayfinding

/-- A request about one level. -/
inductive Edit where
  | insertion (path : String) (index : Int) (items : List Item)
  | sorting (path : String) (order : List String)

namespace Edit

def path : Edit → String
  | insertion path _ _ => path
  | sorting path _ => path

def intent : Edit → Intent
  | insertion path index items => .insertAt path index items
  | sorting path order => .sortAt path order

/-- The request can be carried out on a level. -/
def Fits (level : Tree) : Edit → Prop
  | insertion _ index items =>
    0 ≤ index ∧ (items = [] ∨ Tree.WellFormed items ∧ ∀ item ∈ items, item.id ∉ level.ids)
  | sorting _ _ => True

/-- What is recorded of the request, if it changes anything. -/
def event? (level : Tree) : Edit → Option Event
  | insertion path index items =>
    if items = [] then none else some (Navigation.insertion path index level items)
  | sorting path order =>
    if level.wouldReorder (level.sortingFor order) = true then some (.sorted (level.sortingFor order) path)
    else none

end Edit

/-- What an event does to the item that its level is below of. -/
def Event.act : Event → Item → Item
  | itemsAdded items index _ => Item.fill (·.insert index items)
  | sorted order _ => Item.mapChildren (Tree.sort order)
  | _ => fun item => item

theorem Event.id_act (event : Event) (item : Item) : (event.act item).id = item.id := by
  cases event with
  | sorted order path => cases item <;> rfl
  | _ => rfl

namespace Tree

variable {level : Tree}

theorem without_map {change : Item → Item} (keeps : ∀ item, (change item).id = item.id) (level : Tree)
    (id : String) : without (level.map change) id = (level.without id).map change := by
  simp only [without, List.eraseP_map, Function.comp_def, keeps]

theorem sort_map {change : Item → Item} (keeps : ∀ item, (change item).id = item.id) (order : List String)
    (level : Tree) : sort order (level.map change) = (sort order level).map change := by
  induction order generalizing level with
  | nil => rfl
  | cons id rest ih =>
    rw [sort_cons, sort_cons, get?_map keeps, without_map keeps, ih, List.map_append]
    cases level.get? id <;> rfl

theorem insert_map {change : Item → Item} {items : List Item} (fixed : ∀ item ∈ items, change item = item)
    (level : Tree) (index : Nat) : insert (level.map change) index items = (level.insert index items).map change := by
  have hitems : items.map change = items := (List.map_congr_left fixed).trans (List.map_id items)
  rw [insert, insert, List.map_append, List.map_append, List.map_take, List.map_drop, hitems]

/-- What goes on below a level goes on under an ID that it has. -/
theorem mem_ids_of_levelAt? {target rest : List String} {id : String} {tree deeper : Tree}
    (hl : levelAt? target tree = some level) (h : levelAt? (target ++ id :: rest) tree = some deeper) :
    id ∈ level.ids := by
  rw [levelAt?_append, hl, Option.bind_some, levelAt?] at h
  obtain ⟨item, hg, -⟩ := Option.bind_eq_some_iff.mp h
  exact List.mem_map.mpr ⟨item, get?_mem hg, get?_id hg⟩

/-- If a level has its old items still under their IDs, every other level has its IDs in their order. -/
theorem SameOutside.level_elsewhere {target : List String} {tree tree' level' : Tree}
    (h : SameOutside target tree tree') (hl : levelAt? target tree = some level)
    (hl' : levelAt? target tree' = some level') (same : ∀ id ∈ level.ids, level'.get? id = level.get? id)
    {ids : List String} (hne : ids ≠ target) {other : Tree} (found : levelAt? ids tree = some other) :
    ∃ other', levelAt? ids tree' = some other' ∧ other'.ids = other.ids := by
  by_cases hp : target <+: ids
  · obtain ⟨more, rfl⟩ := hp
    cases more with
    | nil => exact absurd (List.append_nil target) hne
    | cons id rest =>
      have hid := mem_ids_of_levelAt? hl found
      refine ⟨other, ?_, rfl⟩
      rw [levelAt?_append, hl, Option.bind_some, levelAt?] at found
      rw [levelAt?_append, hl', Option.bind_some, levelAt?, same id hid, found]
  · have horder := h.order ids hp
    rw [found, Option.map_some] at horder
    obtain ⟨other', hother, hdetails⟩ := Option.map_eq_some_iff.mp horder
    refine ⟨other', hother, ?_⟩
    have hids := congrArg (List.map Details.id) hdetails
    rwa [List.map_map, List.map_map] at hids

theorem get?_insert_of_mem {items : List Item} (hn : (ids (level ++ items)).Nodup) (index : Nat) {id : String}
    (h : id ∈ level.ids) : (level.insert index items).get? id = level.get? id := by
  obtain ⟨found, hg⟩ := get?_isSome_of_mem_ids h
  rw [get?_of_perm (insert_perm level index items).symm hn, get?_append, hg]
  rfl

end Tree

namespace Item

/-- Items that come in do not share the ID of a child that was there. -/
theorem fill_onChild {items : List Item} {id : String} (new : ∀ item ∈ items, item.id ≠ id) (index : Nat)
    (change : Item → Item) (item : Item) :
    fill (·.insert index items) (item.onChild id change) = (fill (·.insert index items) item).onChild id change := by
  have hfixed : ∀ added ∈ items, (if added.id = id then change added else added) = added :=
    fun added hm => if_neg (new added hm)
  cases item with
  | leaf details => exact congrArg (group details) (Tree.insert_map hfixed [] index)
  | group details children => exact congrArg (group details) (Tree.insert_map hfixed children index)

theorem sort_onChild (id : String) {change : Item → Item} (keeps : ∀ item, (change item).id = item.id)
    (order : List String) (item : Item) :
    mapChildren (Tree.sort order) (item.onChild id change) =
      (mapChildren (Tree.sort order) item).onChild id change := by
  have hchild : ∀ child : Item, (if child.id = id then change child else child).id = child.id := by
    intro child
    split
    · exact keeps child
    · rfl
  cases item with
  | leaf details => rfl
  | group details children => exact congrArg (group details) (Tree.sort_map hchild order children)

theorem adjust_id (ids : List String) (item : Item) : item.adjust (fun found => found) ids = item := by
  induction ids generalizing item with
  | nil => rfl
  | cons id rest ih =>
    have hrest : adjust (fun found => found) rest = fun child => child := funext ih
    rw [adjust, hrest, onChild]
    cases item <;> simp [mapChildren]

end Item

namespace Edit

variable {level level' : Tree}

/-- A request looks at a level no further than at its IDs. -/
theorem fits_congr (h : level'.ids = level.ids) (edit : Edit) : edit.Fits level' ↔ edit.Fits level := by
  cases edit with
  | insertion path index items => simp only [Fits, h]
  | sorting path order => rfl

theorem event?_congr (h : level'.ids = level.ids) (edit : Edit) : edit.event? level' = edit.event? level := by
  cases edit with
  | insertion path index items =>
    have hlength : level'.length = level.length := by simpa [Tree.ids] using congrArg List.length h
    simp only [event?, Navigation.insertion, hlength]
  | sorting path order =>
    have horder : level'.sortingFor order = level.sortingFor order := by simp only [Tree.sortingFor, h]
    have hmoves : level'.wouldReorder (level.sortingFor order) = level.wouldReorder (level.sortingFor order) := by
      simp only [Tree.wouldReorder, h]
    simp only [event?, horder, hmoves]

/-- What becomes of the item that the level is below of. -/
def act (level : Tree) (edit : Edit) : Item → Item := (edit.event? level).elim (fun item => item) Event.act

theorem id_act (level : Tree) (edit : Edit) (item : Item) : (edit.act level item).id = item.id := by
  unfold act
  cases edit.event? level with
  | none => rfl
  | some event => exact event.id_act item

/-- A request changes no item that was there, so it makes no difference whether one of them is changed before it
or after it. -/
theorem act_onChild {edit : Edit} (fits : edit.Fits level) {id : String} (hid : id ∈ level.ids)
    {change : Item → Item} (keeps : ∀ item, (change item).id = item.id) (item : Item) :
    edit.act level (item.onChild id change) = (edit.act level item).onChild id change := by
  cases edit with
  | insertion path index items =>
    simp only [act, event?]
    split
    · rfl
    · rename_i hne
      obtain ⟨_, hnew⟩ := fits.2.resolve_left hne
      have hother : ∀ added ∈ items, added.id ≠ id := fun added hm he => hnew added hm (he ▸ hid)
      exact Item.fill_onChild (Tree.forall_ids_setInitial (p := (· ≠ id)) hother false) _ change item
  | sorting path order =>
    simp only [act, event?]
    split
    · exact Item.sort_onChild id keeps _ item
    · rfl

end Edit

namespace Navigation

variable {nav : Navigation} {level : Tree}

/-- A request is accepted if its level is there and takes it, and then records its event and does nothing else. -/
theorem perform_edit (edit : Edit) {after : Navigation} :
    nav.perform edit.intent = .ok after ↔
      ∃ level, nav.tree.level edit.path = .ok level ∧ edit.Fits level ∧
        after = nav.recordAll (edit.event? level).toList := by
  cases edit with
  | insertion path index items =>
    refine insertAt_eq_ok.trans ⟨?_, ?_⟩
    · rintro ⟨hindex, level, found, ⟨rfl, rfl⟩ | ⟨hne, hbatch, rfl⟩⟩
      · exact ⟨level, found, ⟨hindex, .inl rfl⟩, rfl⟩
      · refine ⟨level, found, ⟨hindex, .inr hbatch⟩, ?_⟩
        rw [Edit.event?, if_neg hne]
        rfl
    · rintro ⟨level, found, ⟨hindex, hbatch⟩, rfl⟩
      refine ⟨hindex, level, found, ?_⟩
      by_cases hne : items = []
      · exact .inl ⟨hne, by rw [Edit.event?, if_pos hne]; rfl⟩
      · exact .inr ⟨hne, hbatch.resolve_left hne, by rw [Edit.event?, if_neg hne]; rfl⟩
  | sorting path order =>
    have hdone : ∀ level, nav.tree.level path = .ok level →
        nav.sortAt path order = .ok (nav.recordAll ((Edit.sorting path order).event? level).toList) := by
      intro level found
      rw [sortAt_eq found, Edit.event?]
      split <;> rfl
    constructor
    · intro h
      obtain ⟨level, found, -⟩ := bind_ok.mp h
      exact ⟨level, found, trivial, Except.ok.inj (h.symm.trans (hdone level found))⟩
    · rintro ⟨level, found, -, rfl⟩
      exact hdone level found

/-- Whatever a request records, the tree shows it in the item that its path leads to. -/
theorem rooted_edit (edit : Edit) (hw : nav.tree.WellFormed) {ids : List String} (found : nav.tree.level edit.path = .ok level)
    (hc : Path.chain? edit.path = some ids) :
    (nav.recordAll (edit.event? level).toList).tree.rooted = nav.tree.rooted.adjust (edit.act level) ids := by
  cases edit with
  | insertion path index items =>
    simp only [Edit.act, Edit.event?]
    split
    · exact (Item.adjust_id ids _).symm
    · exact Snapshot.rooted_itemsAdded hw found hc _ _
  | sorting path order =>
    simp only [Edit.act, Edit.event?]
    split
    · exact Snapshot.rooted_sorted hw found hc _
    · exact (Item.adjust_id ids _).symm

/-- A request leaves every other level with its IDs in their order. -/
theorem level_beside_edit {edit : Edit} (hw : nav.tree.WellFormed) (fits : edit.Fits level)
    (found : nav.tree.level edit.path = .ok level) {path : String} (hne : edit.path ≠ path) {other : Tree}
    (hother : nav.tree.level path = .ok other) :
    ∃ other', (nav.recordAll (edit.event? level).toList).tree.level path = .ok other' ∧
      other'.ids = other.ids := by
  -- What is recorded comes to a change of the level that has the old items under their IDs.
  have hwritten : ∀ {after : Navigation} {level' : Tree} {target : List String},
      Path.chain? edit.path = some target → after.tree.level edit.path = .ok level' →
      Tree.SameOutside target nav.tree after.tree → (∀ id ∈ level.ids, level'.get? id = level.get? id) →
      ∃ other', after.tree.level path = .ok other' ∧ other'.ids = other.ids := by
    intro after level' target hc hl' outside same
    obtain ⟨ids, hids, ho⟩ := Tree.chain_of_level hother
    have hchains : ids ≠ target := by
      rintro rfl
      exact hne ((Path.ofChain_of_chain hc).symm.trans (Path.ofChain_of_chain hids))
    obtain ⟨other', ho', hsame⟩ := outside.level_elsewhere (Tree.levelAt?_of_level found hc)
      (Tree.levelAt?_of_level hl' hc) same hchains ho
    exact ⟨other', Tree.level_of_chain hids ho', hsame⟩
  have hn : level.ids.Nodup := (hw.level found).distinct
  cases edit with
  | insertion path index items =>
    simp only [Edit.event?]
    split
    · exact ⟨other, hother, rfl⟩
    · rename_i hsome
      obtain ⟨sound, new⟩ := fits.2.resolve_left hsome
      obtain ⟨target, hc, hl', outside⟩ :=
        @tree_record_itemsAdded nav path level (Tree.setInitial items false) (min index.toNat level.length) found
      have hall : (Tree.ids (level ++ Tree.setInitial items false)).Nodup :=
        Tree.nodup_append hn (sound.setInitial false).distinct (Tree.forall_ids_setInitial (p := (· ∉ level.ids)) new false)
      exact hwritten hc hl' outside fun id hid => Tree.get?_insert_of_mem hall _ hid
  | sorting path order =>
    simp only [Edit.event?]
    split
    · obtain ⟨target, hc, hl', outside⟩ := nav.tree_record_sorted (level.sortingFor order) found
      refine hwritten hc hl' outside fun id _ => ?_
      exact Tree.get?_of_perm (Tree.sort_perm _ level).symm hn id
    · exact ⟨other, hother, rfl⟩

/-- A request that follows another one at a different level is accepted, records what it would have recorded before,
and makes the same of the item that its path leads to. -/
theorem perform_after_edit (hw : nav.tree.WellFormed) {first edit : Edit} {other : Tree}
    (found : nav.tree.level first.path = .ok other) (fits : first.Fits other)
    (found' : nav.tree.level edit.path = .ok level) (fits' : edit.Fits level) (apart : first.path ≠ edit.path)
    {ids : List String} (hc : Path.chain? edit.path = some ids) :
    let one := nav.recordAll (first.event? other).toList
    let both := one.recordAll (edit.event? level).toList
    one.perform edit.intent = .ok both ∧ both.tree.rooted = one.tree.rooted.adjust (edit.act level) ids := by
  intro one both
  have hone : one.tree.WellFormed := wellFormed_perform hw _ ((perform_edit _).mpr ⟨other, found, fits, rfl⟩)
  obtain ⟨level', hl, hids⟩ := level_beside_edit hw fits found apart found'
  have hevent := edit.event?_congr hids
  have hrooted := rooted_edit _ hone hl hc
  rw [Edit.act, hevent] at hrooted
  refine ⟨(perform_edit _).mpr ⟨level', hl, (edit.fits_congr hids).mpr fits', ?_⟩, hrooted⟩
  rw [hevent]

theorem name_edit (nav : Navigation) (edit : Edit) (level : Tree) :
    (nav.recordAll (edit.event? level).toList).name = nav.name := by
  cases edit with
  | insertion path index items =>
    simp only [Edit.event?]
    split <;> rfl
  | sorting path order =>
    simp only [Edit.event?]
    split <;> rfl

end Navigation

/-- Two requests at different levels that can both be carried out can be carried out in either order. Both orders
lead to the same tree, name and version, and in both each of the requests records the same event, or none. -/
theorem Course.edits_interchange (id : Identity) (moves : List Move) {first second : Edit}
    (apart : first.path ≠ second.path) {one other : Navigation}
    (hone : (run id moves).navigation.perform first.intent = .ok one)
    (hother : (run id moves).navigation.perform second.intent = .ok other) :
    let nav := (run id moves).navigation
    ∃ (both both' : Navigation) (event event' : Option Event),
      one.perform second.intent = .ok both ∧ other.perform first.intent = .ok both' ∧
      both.toSnapshot = both'.toSnapshot ∧
      one.uncommitted = nav.uncommitted ++ event.toList ∧
      both'.uncommitted = other.uncommitted ++ event.toList ∧
      other.uncommitted = nav.uncommitted ++ event'.toList ∧
      both.uncommitted = one.uncommitted ++ event'.toList := by
  intro nav
  have hw : nav.tree.WellFormed := wellFormed_run id moves
  obtain ⟨level, found, fits, rfl⟩ := (Navigation.perform_edit _).mp hone
  obtain ⟨level', found', fits', rfl⟩ := (Navigation.perform_edit _).mp hother
  obtain ⟨ids, hc, hl⟩ := Tree.chain_of_level found
  obtain ⟨ids', hc', hl'⟩ := Tree.chain_of_level found'
  obtain ⟨hboth, htree⟩ := Navigation.perform_after_edit hw found fits found' fits' apart hc'
  obtain ⟨hboth', htree'⟩ := Navigation.perform_after_edit hw found' fits' found fits apart.symm hc
  refine ⟨_, _, first.event? level, second.event? level', hboth, hboth', ?_, ?_, ?_, ?_, ?_⟩
  · refine Snapshot.eq_of_rooted ?_ ?_ ?_ ?_
    · simp only [Navigation.recordAll_toSnapshot, Snapshot.id_foldl_apply]
    · simp only [Navigation.recordAll_toSnapshot, Snapshot.version_foldl_apply]
      omega
    · simp only [Navigation.name_edit]
    · rw [htree, htree', Navigation.rooted_edit _ hw found hc, Navigation.rooted_edit _ hw found' hc']
      refine Item.adjust_comm (first.id_act level) (second.id_act level') ?_ ?_ ?_ _
      · rintro rfl
        exact apart ((Path.ofChain_of_chain hc).symm.trans (Path.ofChain_of_chain hc'))
      · rintro id rest rfl item
        exact Edit.act_onChild fits (Tree.mem_ids_of_levelAt? hl hl') (Item.id_adjust (second.id_act level') rest) item
      · rintro id rest rfl item
        exact Edit.act_onChild fits' (Tree.mem_ids_of_levelAt? hl' hl) (Item.id_adjust (first.id_act level) rest) item
  · exact Navigation.recordAll_uncommitted _ _
  · exact Navigation.recordAll_uncommitted _ _
  · exact Navigation.recordAll_uncommitted _ _
  · exact Navigation.recordAll_uncommitted _ _

/-- The root level is sorted, and a leaf two levels below it becomes a group. -/
theorem Course.edits_interchange_nested :
    let nav := (run (.ofSeed 1) [.attempt (.create "main" Sample.nestedItems)]).navigation
    let first := Edit.sorting "" ["bar"]
    let second := Edit.insertion "bar.baz.foo" 7 Sample.flatItems
    first.path ≠ second.path ∧
      ∃ one other both both', nav.perform first.intent = .ok one ∧ nav.perform second.intent = .ok other ∧
        one.perform second.intent = .ok both ∧ other.perform first.intent = .ok both' ∧
        both.toSnapshot = both'.toSnapshot ∧ one.tree ≠ other.tree := by
  intro nav first second
  have apart : first.path ≠ second.path := by decide
  have hone : nav.perform first.intent = .ok (nav.attempt first.intent) := by decide +kernel
  have hother : nav.perform second.intent = .ok (nav.attempt second.intent) := by decide +kernel
  have hdiffer : (nav.attempt first.intent).tree ≠ (nav.attempt second.intent).tree := by decide +kernel
  obtain ⟨both, both', _, _, hboth, hboth', hsame, _⟩ := edits_interchange (.ofSeed 1) _ apart hone hother
  exact ⟨apart, _, _, both, both', hone, hother, hboth, hboth', hsame, hdiffer⟩

end Wayfinding
