import Wayfinding.Proofs.Occurrence
import Wayfinding.Proofs.Removal
import Wayfinding.Proofs.Replay

namespace Wayfinding

namespace Tree

/-- The items of a payload stand in the tree as initial items, and no other item of it is initial. -/
structure Keeps (payload tree : Tree) : Prop where
  standing : ∀ ids original, detailsAt? ids payload = some original →
    detailsAt? ids tree = some { original with initial := true }
  marked : ∀ ids details, detailsAt? ids tree = some details → details.initial = true →
    ∃ original, detailsAt? ids payload = some original

theorem keeps_setInitial (payload : Tree) : Keeps payload (payload.setInitial true) where
  standing ids original h := by simp [detailsAt?_setInitial, h]
  marked ids details h _ := by
    rw [detailsAt?_setInitial] at h
    obtain ⟨original, ho, _⟩ := Option.map_eq_some_iff.mp h
    exact ⟨original, ho⟩

/-- New items without the flag take no place of an initial one. -/
theorem Keeps.insert {payload tree tree' level : Tree} {target : List String} {items : List Item}
    {index : Nat} (hk : Keeps payload tree) (hw : WellFormed tree)
    (hd : level.checkDuplicates items = .ok ()) (hl : levelAt? target tree = some level)
    (hr : Rewrites (·.insert index (Tree.setInitial items false)) target tree tree') :
    Keeps payload tree' := by
  obtain ⟨hnew, hdistinct⟩ := checkDuplicates_eq_ok.mp hd
  have hinside : ∀ more, more ≠ [] → detailsAt? (target ++ more) tree' =
      (detailsAt? (target ++ more) tree).or (detailsAt? more (Tree.setInitial items false)) := by
    intro more hm
    rw [hr.detailsAt?_inside hl hm, detailsAt?_append hm, hl, Option.bind_some]
    refine detailsAt?_insert (hw.levelAt? hl).distinct ?_ ?_ more
    · rw [ids_setInitial]
      exact hdistinct
    · intro item hm
      rw [setInitial_eq_map] at hm
      obtain ⟨original, ho, rfl⟩ := List.mem_map.mp hm
      rw [Item.id_setInitial]
      exact hnew original ho
  constructor
  · intro ids original ho
    have hs := hk.standing ids original ho
    rcases chain_cases target ids with ⟨more, hm, rfl⟩ | hout
    · rw [hinside more hm, hs]
      rfl
    · rw [hr.detailsAt?_outside hout, hs]
  · intro ids details hs hi
    rcases chain_cases target ids with ⟨more, hm, rfl⟩ | hout
    · rw [hinside more hm] at hs
      cases hold : detailsAt? (target ++ more) tree with
      | some found =>
        rw [hold, Option.some_or] at hs
        cases hs
        exact hk.marked _ _ hold hi
      | none =>
        rw [hold, Option.none_or, detailsAt?_setInitial] at hs
        obtain ⟨original, _, rfl⟩ := Option.map_eq_some_iff.mp hs
        cases hi
    · rw [hr.detailsAt?_outside hout] at hs
      exact hk.marked ids details hs hi

theorem Keeps.sort {payload tree tree' level : Tree} {target order : List String}
    (hk : Keeps payload tree) (hw : WellFormed tree) (hl : levelAt? target tree = some level)
    (hr : Rewrites (Tree.sort order) target tree tree') : Keeps payload tree' := by
  have hsame : ∀ ids, detailsAt? ids tree' = detailsAt? ids tree := by
    intro ids
    rcases chain_cases target ids with ⟨more, hm, rfl⟩ | hout
    · rw [hr.detailsAt?_inside hl hm, detailsAt?_append hm, hl, Option.bind_some]
      cases more with
      | nil => rfl
      | cons id rest =>
        have hg := get?_of_perm (sort_perm order level).symm (hw.levelAt? hl).distinct id
        exact detailsAt?_congr hg rest
    · exact hr.detailsAt?_outside hout
  exact ⟨fun ids original h => by rw [hsame, hk.standing ids original h],
    fun ids details h hi => hk.marked ids details (hsame ids ▸ h) hi⟩

/-- A path to no item of the payload can be removed: what stands below it is not of the payload either. -/
theorem Keeps.removePath {payload tree : Tree} {path : String} {target : List String}
    (hk : Keeps payload tree) (hw : WellFormed tree) (hs : Path.segments? path = some target)
    (hloose : detailsAt? target payload = none) : Keeps payload (tree.removePath path).2 := by
  constructor
  · intro ids original ho
    rw [detailsAt?_removePath hw hs]
    split
    · rename_i hp
      obtain ⟨rest, rfl⟩ := hp
      obtain ⟨above, ha⟩ := detailsAt?_prefix (Path.ne_nil_of_segments hs) ho
      rw [hloose] at ha
      cases ha
    · exact hk.standing ids original ho
  · intro ids details h hi
    rw [detailsAt?_removePath hw hs] at h
    split at h
    · cases h
    · exact hk.marked ids details h hi

theorem Keeps.removeAll {payload tree : Tree} (hk : Keeps payload tree) (hw : WellFormed tree)
    (paths : List String)
    (hloose : ∀ path ∈ paths, ∃ target, Path.segments? path = some target ∧
      detailsAt? target payload = none) :
    Keeps payload (paths.foldl (fun tree path => (tree.removePath path).2) tree) := by
  induction paths generalizing tree with
  | nil => exact hk
  | cons path rest ih =>
    obtain ⟨⟨target, hs, hl⟩, hrest⟩ := List.forall_mem_cons.mp hloose
    exact ih (hk.removePath hw hs hl) (hw.removePath path) hrest

/-- A path to an item that is not initial leads to no item of the payload. -/
theorem Keeps.loose {payload tree : Tree} (hk : Keeps payload tree) {path : String} {item : Item}
    (h : tree.item path = .ok item) (hi : item.initial = false) :
    ∃ target, Path.segments? path = some target ∧ detailsAt? target payload = none := by
  obtain ⟨target, hs, hd⟩ := detailsAt?_of_item h
  refine ⟨target, hs, ?_⟩
  cases hp : detailsAt? target payload with
  | none => rfl
  | some original =>
    have hstand := hk.standing target original hp
    rw [hd] at hstand
    have hflag : item.details.initial = true := by rw [Option.some.inj hstand]
    have hfalse : item.details.initial = false := hi
    rw [hflag] at hfalse
    cases hfalse

end Tree

/-- A created navigation whose initial items are those of a payload. -/
structure Founded (payload : Tree) (state : Snapshot) : Prop where
  named : state.name ≠ ""
  wellFormed : state.tree.WellFormed
  keeps : payload.Keeps state.tree

theorem Decision.founded {payload : Tree} {state : Snapshot} {events : List Event}
    (hf : Founded payload state) (h : Decision state events) :
    Founded payload (events.foldl Snapshot.apply state) := by
  have hw := h.wellFormed hf.wellFormed
  cases h with
  | idle => exact hf
  | creation fresh => exact absurd fresh hf.named
  | addition found _ _ distinct _ =>
    obtain ⟨ids, hl, hr⟩ := Snapshot.rewrites_itemsAdded found (Tree.setInitial _ false) _
    exact ⟨hf.named, hw, hf.keeps.insert hf.wellFormed distinct hl hr⟩
  | removal _ loose =>
    refine ⟨hf.named, hw, hf.keeps.removeAll hf.wellFormed _ ?_⟩
    intro path hp
    obtain ⟨item, hitem, hi⟩ := loose path hp
    exact hf.keeps.loose hitem hi
  | sorting found _ =>
    obtain ⟨ids, hl, hr⟩ := Snapshot.rewrites_sorted found _
    exact ⟨hf.named, hw, hf.keeps.sort hf.wellFormed hl hr⟩

theorem Navigation.founded_of_create {nav created : Navigation} {name : String} {items : List Item}
    (h : nav.create name items = .ok created) : Founded items created.toSnapshot := by
  obtain ⟨_, hnamed, hsound, hdistinct, rfl⟩ := create_eq_ok.mp h
  obtain ⟨hname, htree⟩ := Snapshot.foldl_creation nav.toSnapshot name items
  rw [recordAll_toSnapshot]
  refine ⟨hname ▸ hnamed, ?_, ?_⟩
  · rw [htree]
    exact (Tree.wellFormed_of_checks hsound hdistinct).setInitial true
  · rw [htree]
    exact Tree.keeps_setInitial items

theorem Course.founded_step {payload : Tree} {course : Course}
    (hf : Founded payload course.navigation.toSnapshot) (move : Move) :
    Founded payload (course.step move).navigation.toSnapshot := by
  cases move with
  | attempt intent =>
    obtain ⟨events, hdecided, hafter⟩ := Navigation.attempt_decided course.navigation intent
    simp only [step, hafter, Navigation.recordAll_toSnapshot]
    exact hdecided.founded hf
  | drain => exact hf

theorem Course.founded_foldl {payload : Tree} {course : Course}
    (hf : Founded payload course.navigation.toSnapshot) (moves : List Move) :
    Founded payload (moves.foldl step course).navigation.toSnapshot := by
  induction moves generalizing course with
  | nil => exact hf
  | cons move rest ih => exact ih (founded_step hf move)

/-- The initial items of a tree are those of a payload, at their paths and with nothing but the flag changed, and
what is above an initial item is initial. -/
structure Tree.InitialPart (payload tree : Tree) : Prop where
  standing : ∀ ids original, payload.Holds ids original →
    payload.item (Path.ofChain ids) = .ok original ∧ ∃ item, tree.item (Path.ofChain ids) = .ok item ∧
      item.details = { original.details with initial := true }
  marked : ∀ ids item, tree.Holds ids item → item.initial = true →
    ∃ original, payload.Holds ids original ∧ item.details = { original.details with initial := true }
  above : ∀ ids more item ancestor, tree.Holds (ids ++ more) item → item.initial = true →
    tree.Holds ids ancestor → ancestor.initial = true

theorem Founded.initialPart {payload : Tree} {state : Snapshot} (hf : Founded payload state)
    (hp : payload.WellFormed) : payload.InitialPart state.tree := by
  have hw := hf.wellFormed
  have hmarked : ∀ ids item, state.tree.Holds ids item → item.initial = true →
      ∃ original, payload.Holds ids original ∧
        item.details = { original.details with initial := true } := by
    intro ids item hh hi
    have hd := hw.detailsAt?_of_holds hh
    obtain ⟨details, ho⟩ := hf.keeps.marked ids item.details hd hi
    obtain ⟨original, horiginal, rfl⟩ := Tree.holds_of_detailsAt? ho
    have hs := hf.keeps.standing ids original.details ho
    rw [hd] at hs
    exact ⟨original, horiginal, Option.some.inj hs⟩
  refine ⟨?_, hmarked, ?_⟩
  · intro ids original ho
    have hs := hf.keeps.standing ids original.details (hp.detailsAt?_of_holds ho)
    obtain ⟨item, hh, hdetails⟩ := Tree.holds_of_detailsAt? hs
    exact ⟨hp.item_of_holds ho, item, hw.item_of_holds hh, hdetails⟩
  · intro ids more item ancestor hh hi ha
    obtain ⟨original, ho, _⟩ := hmarked (ids ++ more) item hh hi
    obtain ⟨details, hd⟩ := Tree.detailsAt?_prefix ha.ne_nil (hp.detailsAt?_of_holds ho)
    have hs := hf.keeps.standing ids details hd
    rw [hw.detailsAt?_of_holds ha] at hs
    have hdetails := Option.some.inj hs
    exact congrArg Details.initial hdetails

/-- Whatever is done to a navigation after its creation, its initial items remain those of the creation. -/
theorem Navigation.initial_items_stay {nav created : Navigation} {name : String} {items : List Item}
    (h : nav.create name items = .ok created) (moves : List Move) :
    Tree.InitialPart items (moves.foldl Course.step ⟨created, []⟩).navigation.tree := by
  obtain ⟨_, _, hsound, hdistinct, _⟩ := create_eq_ok.mp h
  have hs : Founded _ (⟨created, []⟩ : Course).navigation.toSnapshot := founded_of_create h
  have hf := Course.founded_foldl hs moves
  exact hf.initialPart (Tree.wellFormed_of_checks hsound hdistinct)

theorem Navigation.initial_items_outlast_removal :
    ∃ created, (Navigation.new (.ofSeed 1)).create "main" Sample.nestedItems = .ok created ∧
      Tree.InitialPart Sample.nestedItems
        ([Move.attempt (.append Sample.flatItems), .attempt (.remove ["bar.baz"]), .drain,
          .attempt (.sort ["bar"])].foldl Course.step ⟨created, []⟩).navigation.tree := by
  obtain ⟨created, hc⟩ : ∃ created,
      (Navigation.new (.ofSeed 1)).create "main" Sample.nestedItems = .ok created := ⟨_, rfl⟩
  exact ⟨created, hc, initial_items_stay hc _⟩

end Wayfinding
