import Wayfinding.Proofs.Addressable
import Wayfinding.Proofs.Removal
import Wayfinding.Proofs.Occurrence

namespace Wayfinding

mutual

/-- The item without the descendants that are gone. Items are told apart by their chains of IDs, which begin in
the level of this item. -/
def Item.prune (gone : List String → Bool) : Item → Item
  | .leaf details => .leaf details
  | .group details children =>
    .group details (Item.pruneAll (fun chain => gone (details.id :: chain)) children)

def Item.pruneAll (gone : List String → Bool) : List Item → List Item
  | [] => []
  | item :: rest =>
    if gone [item.id] then Item.pruneAll gone rest else item.prune gone :: Item.pruneAll gone rest

end

namespace Tree

/-- The tree without the items whose chains of IDs are gone, and without all that is below them. A group whose
children are gone stays a group. -/
def prune (gone : List String → Bool) (tree : Tree) : Tree := Item.pruneAll gone tree

theorem details_prune (gone : List String → Bool) (item : Item) :
    (item.prune gone).details = item.details := by
  cases item <;> rfl

theorem id_prune (gone : List String → Bool) (item : Item) : (item.prune gone).id = item.id :=
  congrArg Details.id (details_prune gone item)

/-- Groups stay groups, and leaves stay leaves. -/
theorem children?_prune (gone : List String → Bool) (item : Item) :
    (item.prune gone).children? = item.children?.map (prune fun chain => gone (item.id :: chain)) := by
  cases item <;> rfl

example : prune (fun chain => chain = ["bar", "baz"])
    [.new "foo" .label, (Item.new "bar" .label).withChildren [.new "baz" .label]] =
      [.new "foo" .label, (Item.new "bar" .label).withChildren []] := by decide

theorem sublevel_prune (gone : List String → Bool) (item : Item) :
    (item.prune gone).sublevel = prune (fun chain => gone (item.id :: chain)) item.sublevel := by
  cases item <;> rfl

/-- On one level pruning keeps what is not gone, in its order. -/
theorem prune_eq (gone : List String → Bool) (level : Tree) :
    prune gone level = (level.filter fun item => !gone [item.id]).map (Item.prune gone) := by
  unfold prune
  induction level with
  | nil => rfl
  | cons first rest ih =>
    rw [Item.pruneAll]
    by_cases hg : gone [first.id] = true
    · simp [hg, ih]
    · simp [hg, ih]

theorem ids_prune (gone : List String → Bool) (level : Tree) :
    (level.prune gone).ids = level.ids.filter fun id => !gone [id] := by
  have hids : Item.id ∘ Item.prune gone = Item.id := funext (id_prune gone)
  rw [prune_eq, ids, ids, List.map_map, hids, List.filter_map]
  rfl

mutual

theorem prune_prune_item (first second : List String → Bool) : (item : Item) →
    (item.prune first).prune second = item.prune fun chain => first chain || second chain
  | .leaf _ => rfl
  | .group details children => congrArg (Item.group details) (prune_prune_items _ _ children)

theorem prune_prune_items (first second : List String → Bool) : (items : List Item) →
    Item.pruneAll second (Item.pruneAll first items) =
      Item.pruneAll (fun chain => first chain || second chain) items
  | [] => rfl
  | item :: rest => by
    have hitem := prune_prune_item first second item
    have hrest := prune_prune_items first second rest
    cases hf : first [item.id] <;> cases hs : second [item.id] <;>
      simp [Item.pruneAll, hf, hs, id_prune, hitem, hrest]

end

theorem prune_prune (first second : List String → Bool) (tree : Tree) :
    (tree.prune first).prune second = tree.prune fun chain => first chain || second chain :=
  prune_prune_items first second tree

theorem Holds.cons {level : Tree} {chain : List String} {deeper : Item} (first : Item)
    (h : Holds level chain deeper) : Holds (first :: level) chain deeper := by
  cases h with
  | here mem => exact .here (List.mem_cons_of_mem first mem)
  | inside mem held => exact .inside (List.mem_cons_of_mem first mem) held

mutual

theorem prune_congr_item {first second : List String → Bool} : (item : Item) →
    (∀ chain deeper, Holds item.sublevel chain deeper → first (item.id :: chain) = second (item.id :: chain)) →
      item.prune first = item.prune second
  | .leaf _, _ => rfl
  | .group details children, h => congrArg (Item.group details) (prune_congr_items children h)

theorem prune_congr_items {first second : List String → Bool} : (items : List Item) →
    (∀ chain item, Holds items chain item → first chain = second chain) →
      Item.pruneAll first items = Item.pruneAll second items
  | [], _ => rfl
  | item :: rest, h => by
    have hhere := h [item.id] item (.here List.mem_cons_self)
    have hitem : item.prune first = item.prune second :=
      prune_congr_item item fun chain deeper hd => h _ deeper (.inside List.mem_cons_self hd)
    have hrest : Item.pruneAll first rest = Item.pruneAll second rest :=
      prune_congr_items rest fun chain deeper hd => h chain deeper (hd.cons item)
    rw [Item.pruneAll, Item.pruneAll, hhere, hitem, hrest]

end

mutual

theorem prune_false_item : (item : Item) → (item.prune fun _ => false) = item
  | .leaf _ => rfl
  | .group details children => congrArg (Item.group details) (prune_false_items children)

theorem prune_false_items : (items : List Item) → Item.pruneAll (fun _ => false) items = items
  | [] => rfl
  | item :: rest => by
    rw [Item.pruneAll, prune_false_item item, prune_false_items rest]
    rfl

end

theorem prune_none_item {gone : List String → Bool} {item : Item}
    (h : ∀ chain deeper, Holds item.sublevel chain deeper → gone (item.id :: chain) = false) :
    item.prune gone = item :=
  (prune_congr_item item h).trans (prune_false_item item)

theorem prune_none {gone : List String → Bool} {tree : Tree}
    (h : ∀ chain item, Holds tree chain item → gone chain = false) : tree.prune gone = tree :=
  (prune_congr_items tree h).trans (prune_false_items tree)

theorem Holds.head {level : Tree} {chain : List String} {item : Item} (h : Holds level chain item) :
    ∃ id rest, chain = id :: rest ∧ id ∈ level.ids := by
  cases h with
  | here mem => exact ⟨_, [], rfl, List.mem_map_of_mem mem⟩
  | inside mem _ => exact ⟨_, _, rfl, List.mem_map_of_mem mem⟩

theorem prune_elsewhere {level : Tree} {id : String} (rest : List String) (h : id ∉ level.ids) :
    level.prune (fun chain => chain = id :: rest) = level := by
  refine prune_none fun chain item hh => decide_eq_false ?_
  obtain ⟨first, _, rfl, hm⟩ := hh.head
  intro he
  cases he
  exact h hm

/-- Below one item of a level. The items beside it have other IDs. -/
theorem prune_at {before after : Tree} {item : Item} {rest : List String} (hr : rest ≠ [])
    (hn : (ids (before ++ item :: after)).Nodup) :
    prune (fun chain => chain = item.id :: rest) (before ++ item :: after) =
      before ++ (item.prune fun chain => chain = item.id :: rest) :: after := by
  obtain ⟨hb, ha⟩ := not_mem_beside hn
  have hsplit : prune (fun chain => chain = item.id :: rest) (before ++ item :: after) =
      prune (fun chain => chain = item.id :: rest) before ++
        (item.prune fun chain => chain = item.id :: rest) ::
          prune (fun chain => chain = item.id :: rest) after := by
    simp [prune_eq, hr.symm]
  rw [hsplit, prune_elsewhere rest hb, prune_elsewhere rest ha]

theorem prune_singleton {level : Tree} (hn : level.ids.Nodup) (id : String) :
    level.prune (fun chain => chain = [id]) = level.without id := by
  have hkept : ∀ item : Item, (item.prune fun chain => chain = [id]) = item := by
    intro item
    refine prune_none_item fun chain deeper hh => decide_eq_false fun he => hh.ne_nil ?_
    exact (List.cons.inj he).2
  rw [prune_eq, without_eq_filter hn, funext hkept]
  simp

theorem prune_group (details : Details) (children : List Item) (rest : List String) :
    ((Item.group details children).prune fun chain => chain = details.id :: rest) =
      .group details (prune (fun chain => chain = rest) children) := by
  simp [Item.prune, prune]

/-- A removal below the root level takes one chain away. Leaves have nothing below them, and groups stay
groups. -/
theorem prune_of_alter? {change : Item → Item} {last : String}
    (leaf : ∀ details, change (.leaf details) = .leaf details)
    (group : ∀ details children, change (.group details children) = .group details (without children last))
    {parents : List String} (hne : parents ≠ []) {tree tree' : Tree} (hw : WellFormed tree)
    (h : alter? change parents tree = some tree') :
    tree' = tree.prune fun chain => chain = parents ++ [last] := by
  induction parents generalizing tree tree' with
  | nil => exact absurd rfl hne
  | cons id rest ih =>
    cases rest with
    | nil =>
      obtain ⟨before, item, item', after, rfl, rfl, _, hc, rfl⟩ := change?_eq_some h
      cases hc
      have hitem : change item = item.prune fun chain => chain = item.id :: [last] := by
        cases item with
        | leaf details => exact leaf details
        | group details children =>
          have hchildren := (hw.inside (.group details children) (by simp)).distinct
          exact (group details children).trans
            ((prune_group details children [last]).trans
              (congrArg (Item.group details) (prune_singleton hchildren last))).symm
      rw [hitem]
      exact (prune_at (by simp) hw.distinct).symm
    | cons next rest =>
      obtain ⟨before, item, item', after, rfl, rfl, _, hc, rfl⟩ := change?_eq_some h
      cases item with
      | leaf details => cases hc
      | group details children =>
        obtain ⟨children', ha, rfl⟩ := Option.map_eq_some_iff.mp hc
        have hchildren := ih (by simp) (hw.inside (.group details children) (by simp)) ha
        rw [hchildren, ← prune_group]
        exact (prune_at (by simp) hw.distinct).symm

theorem updateExistingLevel_eq_prune {tree tree' : Tree} (hw : WellFormed tree) {parent last : String}
    {parents : List String} (hc : Path.chain? parent = some parents)
    (h : tree.updateExistingLevel parent (·.without last) = .ok tree') :
    tree' = tree.prune fun chain => chain = parents ++ [last] := by
  unfold updateExistingLevel at h
  split at h
  · rename_i hroot
    rw [hroot] at hc
    cases hc
    cases h
    exact (prune_singleton hw.distinct last).symm
  · rename_i hbelow
    have hs : Path.segments? parent = some parents := by simpa [Path.chain?, hbelow] using hc
    obtain ⟨ids, hs', ha⟩ := updateItem_eq_ok.mp h
    cases hs.symm.trans hs'
    exact prune_of_alter? (fun _ => rfl) (fun _ _ => rfl) (Path.ne_nil_of_segments hs) hw ha

theorem removePath_eq_prune {tree : Tree} (hw : WellFormed tree) {path : String} {target : List String}
    (hs : Path.segments? path = some target) :
    (tree.removePath path).2 = tree.prune fun chain => chain = target := by
  obtain ⟨parents, last, rfl, hc, hlast⟩ := Path.splitLast_of_segments hs
  by_cases he : ∃ level, tree.existingLevel (Path.splitLast path).1 = .ok (some level)
  · obtain ⟨level, he⟩ := he
    obtain ⟨tree', hu⟩ := updateExistingLevel_of_level (level_of_existingLevel he) (·.without last)
    have hremoved : (tree.removePath path).2 = tree' := by
      simp [Tree.removePath, he, hlast, hu, Except.toOption]
    rw [hremoved]
    exact updateExistingLevel_eq_prune hw hc hu
  · have hno := not_exists.mp he
    rw [removePath_of_no_level hno]
    refine (prune_none fun chain item hh => decide_eq_false ?_).symm
    rintro rfl
    have hstands := hw.detailsAt?_of_holds hh
    rw [detailsAt?_of_no_level hc hno] at hstands
    cases hstands

/-- Paths removed one after the other are pruned at once. -/
theorem removeAll_eq_prune {tree : Tree} (hw : WellFormed tree) {paths : List String}
    (hs : ∀ path ∈ paths, ∃ target, Path.segments? path = some target) :
    paths.foldl (fun tree path => (tree.removePath path).2) tree =
      tree.prune fun chain => some chain ∈ paths.map Path.segments? := by
  induction paths generalizing tree with
  | nil => exact (prune_none fun _ _ _ => by simp).symm
  | cons path rest ih =>
    obtain ⟨⟨target, ht⟩, hrest⟩ := List.forall_mem_cons.mp hs
    rw [List.foldl_cons, ih (hw.removePath path) hrest, removePath_eq_prune hw ht, prune_prune]
    congr 1
    funext chain
    simp [ht]

/-- The chains that paths spell are those of their segments. -/
theorem removeAll_eq_prune_ofChain {tree : Tree} (hw : WellFormed tree) {paths : List String}
    (hs : ∀ path ∈ paths, ∃ target, Path.segments? path = some target) :
    paths.foldl (fun tree path => (tree.removePath path).2) tree =
      tree.prune fun chain => Path.ofChain chain ∈ paths := by
  rw [removeAll_eq_prune hw hs]
  refine prune_congr_items tree fun chain item hh => decide_eq_decide.mpr ?_
  rw [List.mem_map]
  constructor
  · rintro ⟨path, hm, ht⟩
    rw [Path.ofChain_of_segments ht]
    exact hm
  · intro hm
    exact ⟨_, hm, Path.segments?_ofChain hh.ne_nil (hw.valid_of_holds hh)⟩

theorem get?_prune (gone : List String → Bool) (level : Tree) (id : String) :
    (level.prune gone).get? id = if gone [id] then none else (level.get? id).map (Item.prune gone) := by
  unfold prune
  induction level with
  | nil => simp [Item.pruneAll, get?]
  | cons first rest ih =>
    by_cases hid : first.id = id
    · subst hid
      rw [get?_cons_self, Item.pruneAll]
      by_cases hg : gone [first.id] = true
      · rw [if_pos hg, ih, if_pos hg, if_pos hg]
      · rw [if_neg hg, if_neg hg, ← id_prune gone first, get?_cons_self]
        rfl
    · rw [get?_cons_ne rest hid, ← ih, Item.pruneAll]
      split
      · rfl
      · exact get?_cons_ne _ (by rwa [id_prune])

theorem descend?_prune_gone {gone : List String → Bool} {tree : Tree} {above : List String} (hne : above ≠ [])
    (hg : gone above = true) (more : List String) : descend? (above ++ more) (tree.prune gone) = none := by
  induction above generalizing gone tree with
  | nil => exact absurd rfl hne
  | cons id rest ih =>
    by_cases hr : rest = []
    · subst hr
      have hnone : (tree.prune gone).get? id = none := by rw [get?_prune, if_pos hg]
      by_cases hm : more = []
      · simpa [hm, descend?] using hnone
      · rw [List.cons_append, List.nil_append, descend?_cons hm, hnone]
        rfl
    · rw [List.cons_append, descend?_cons (by simp [hr]), get?_prune]
      split
      · rfl
      · cases hf : tree.get? id with
        | none => rfl
        | some item =>
          rw [← get?_id hf] at hg
          rw [Option.map_some, Option.bind_some, sublevel_prune]
          exact ih hr hg

/-- A level that nothing is gone of on the way to it is there without what is gone in it and below. -/
theorem levelAt?_prune {gone : List String → Bool} {tree : Tree} {ids : List String}
    (h : ∀ above, above ≠ [] → above <+: ids → gone above = false) :
    levelAt? ids (tree.prune gone) = (levelAt? ids tree).map (prune fun chain => gone (ids ++ chain)) := by
  induction ids generalizing gone tree with
  | nil => rfl
  | cons id rest ih =>
    have hid : gone [id] = false := h [id] (by simp) (by simp)
    rw [levelAt?, levelAt?, get?_prune, hid]
    cases hf : tree.get? id with
    | none => rfl
    | some item =>
      have hbelow : ∀ above, above ≠ [] → above <+: rest → gone (item.id :: above) = false := by
        intro above _ hp
        rw [get?_id hf]
        exact h (id :: above) (by simp) ((List.prefix_cons_inj id).mpr hp)
      have hrest : levelAt? rest (prune (fun chain => gone (item.id :: chain)) item.sublevel) =
          (levelAt? rest item.sublevel).map (prune fun chain => gone (item.id :: (rest ++ chain))) := ih hbelow
      simpa [sublevel_prune, get?_id hf] using hrest

/-- An item that is not gone itself, nor with one above it, is found where it was, without what is gone below
it. -/
theorem descend?_prune_kept {gone : List String → Bool} {tree : Tree} {ids : List String}
    (h : ∀ above, above ≠ [] → above <+: ids → gone above = false) :
    descend? ids (tree.prune gone) =
      (descend? ids tree).map (Item.prune fun chain => gone (ids.dropLast ++ chain)) := by
  obtain rfl | ⟨parents, last, hids⟩ := List.eq_nil_or_concat ids
  · rfl
  · rw [List.concat_eq_append] at hids
    subst hids
    have hlast : gone (parents ++ [last]) = false := h _ (by simp) (List.prefix_refl _)
    have habove : ∀ above, above ≠ [] → above <+: parents → gone above = false := fun above hne hp =>
      h above hne (hp.trans (List.prefix_append parents [last]))
    rw [descend?_append (by simp), descend?_append (by simp), levelAt?_prune habove]
    cases levelAt? parents tree with
    | none => rfl
    | some level => simp [descend?, get?_prune, hlast]

end Tree

namespace Navigation

/-- The path leads to an item of the creation. -/
def leadsToInitial (nav : Navigation) (path : String) : Bool :=
  (nav.tree.item path).toOption.any Item.initial

/-- Of the paths of a removal the first that leads to an initial item decides, and without one those that lead
to an item are what is removed. -/
theorem removable_eq (nav : Navigation) (paths : List String) :
    nav.removable paths = match paths.find? nav.leadsToInitial with
      | some path => .error (.initialItem path)
      | none => .ok (paths.filter fun path => (nav.tree.item path).isOk) := by
  induction paths with
  | nil => rfl
  | cons path rest ih =>
    unfold removable
    cases hi : nav.tree.item path with
    | error error =>
      have hskipped : nav.leadsToInitial path = false := by simp [leadsToInitial, hi, Except.toOption]
      simp [hskipped, hi, ih, Except.isOk, Except.toBool]
    | ok item =>
      have hinitial : nav.leadsToInitial path = item.initial := by
        simp [leadsToInitial, hi, Except.toOption]
      by_cases hf : item.initial = true
      · simp [hinitial, hf]
      · have hkept : nav.leadsToInitial path = false := by simpa [hinitial] using hf
        simp only [hf, hkept, ih, List.find?_cons]
        cases rest.find? nav.leadsToInitial <;> simp [hi, Except.map, Except.isOk, Except.toBool]

theorem leadsToInitial_iff {nav : Navigation} {path : String} :
    nav.leadsToInitial path = true ↔ ∃ item, nav.tree.item path = .ok item ∧ item.initial = true := by
  unfold leadsToInitial
  cases nav.tree.item path <;> simp [Except.toOption]

theorem remove_eq_error {nav : Navigation} {paths : List String} {error : NavigationError} :
    nav.remove paths = .error error ↔
      ∃ path, paths.find? nav.leadsToInitial = some path ∧ error = .initialItem path := by
  rw [remove, removable_eq]
  cases paths.find? nav.leadsToInitial with
  | some path => simp [bind, Except.bind, eq_comm]
  | none =>
    simp only [bind, Except.bind, reduceCtorEq, false_and, exists_false, iff_false]
    split <;> simp [pure, Except.pure]

theorem remove_refused_iff {nav : Navigation} {paths : List String} :
    (∃ error, nav.remove paths = .error error) ↔ ∃ path ∈ paths, nav.leadsToInitial path = true := by
  rw [← List.find?_isSome, Option.isSome_iff_exists]
  constructor
  · rintro ⟨error, h⟩
    obtain ⟨path, hf, _⟩ := remove_eq_error.mp h
    exact ⟨path, hf⟩
  · rintro ⟨path, hf⟩
    exact ⟨_, remove_eq_error.mpr ⟨path, hf, rfl⟩⟩

/-- What is removed is what the paths led to before. -/
theorem remove_eq_ok {nav after : Navigation} {paths : List String} (h : nav.remove paths = .ok after) :
    let found := paths.filter fun path => (nav.tree.item path).isOk
    after = if found = [] then nav else nav.record (.itemsRemoved found) := by
  intro found
  rw [remove, removable_eq] at h
  cases hf : paths.find? nav.leadsToInitial with
  | some path => simp [hf, bind, Except.bind] at h
  | none =>
    rw [hf] at h
    change (if found.isEmpty then .ok nav else .ok (nav.record (.itemsRemoved found)) : Except NavigationError _) =
      .ok after at h
    rw [← apply_ite Except.ok] at h
    simpa using (Except.ok.inj h).symm

theorem tree_remove {nav after : Navigation} {paths : List String} (hw : nav.tree.WellFormed)
    (h : nav.remove paths = .ok after) :
    after.tree = nav.tree.prune fun chain =>
      Path.ofChain chain ∈ paths.filter fun path => (nav.tree.item path).isOk := by
  have hspelled : ∀ path ∈ paths.filter fun path => (nav.tree.item path).isOk,
      ∃ target, Path.segments? path = some target := by
    intro path hm
    cases hi : nav.tree.item path with
    | error error => simp [hi, Except.isOk, Except.toBool] at hm
    | ok item =>
      obtain ⟨target, ht, _⟩ := Tree.detailsAt?_of_item hi
      exact ⟨target, ht⟩
  rw [← Tree.removeAll_eq_prune_ofChain hw hspelled, remove_eq_ok h]
  split
  · rename_i hnone
    rw [hnone]
    rfl
  · rfl

/-- To a removal its paths are a set, as far as the tree can show. -/
theorem tree_attempt_remove_congr {nav : Navigation} (hw : nav.tree.WellFormed) {paths other : List String}
    (h : ∀ path, path ∈ other ↔ path ∈ paths) :
    (nav.attempt (.remove other)).tree = (nav.attempt (.remove paths)).tree := by
  have hrefused : (∃ error, nav.remove other = .error error) ↔ ∃ error, nav.remove paths = .error error := by
    simp only [remove_refused_iff, h]
  simp only [attempt, perform]
  cases ho : nav.remove other with
  | error error =>
    obtain ⟨_, hp⟩ := hrefused.mp ⟨error, ho⟩
    rw [hp]
    rfl
  | ok left =>
    cases hp : nav.remove paths with
    | error error =>
      obtain ⟨_, hn⟩ := hrefused.mpr ⟨error, hp⟩
      rw [ho] at hn
      cases hn
    | ok right =>
      change left.tree = right.tree
      rw [tree_remove hw ho, tree_remove hw hp]
      congr 1
      funext chain
      simp only [List.mem_filter, h]

end Navigation

/-- A removal is refused exactly if a path of it leads to an item of the creation. Otherwise the tree comes to be
without what its paths led to and all that is below. -/
theorem Course.removal_exact (id : Identity) (moves : List Move) (paths : List String) :
    let nav := (run id moves).navigation
    let found := paths.filter fun path => (nav.tree.item path).isOk
    let gone : List String → Bool := fun chain => Path.ofChain chain ∈ found
    ((∃ error, nav.remove paths = .error error) ↔
      ∃ path ∈ paths, ∃ item, nav.tree.item path = .ok item ∧ item.initial = true) ∧
    (∀ error, nav.remove paths = .error error →
      ∃ before path after item, paths = before ++ path :: after ∧ nav.tree.item path = .ok item ∧
        item.initial = true ∧ error = .initialItem path ∧
        ∀ earlier ∈ before, ∀ other, nav.tree.item earlier = .ok other → other.initial = false) ∧
    (∀ after, nav.remove paths = .ok after →
      after = (if found = [] then nav else nav.record (.itemsRemoved found)) ∧
      after.tree = nav.tree.prune gone ∧
      (∀ above more, above ≠ [] → Path.ofChain above ∈ found →
        Tree.descend? (above ++ more) after.tree = none) ∧
      ∀ ids, (∀ above, above ≠ [] → above <+: ids → Path.ofChain above ∉ found) →
        (∀ item, Tree.descend? ids nav.tree = some item →
          ∃ left, Tree.descend? ids after.tree = some left ∧ left.details = item.details ∧
            left.children?.isSome = item.children?.isSome) ∧
        (Tree.levelAt? ids after.tree).map Tree.ids = (Tree.levelAt? ids nav.tree).map fun level =>
          level.ids.filter fun id => Path.ofChain (ids ++ [id]) ∉ found) ∧
    ∀ other, (∀ path, path ∈ other ↔ path ∈ paths) →
      (nav.attempt (.remove other)).tree = (nav.attempt (.remove paths)).tree := by
  intro nav found gone
  have hw : nav.tree.WellFormed := wellFormed_run id moves
  refine ⟨?_, ?_, ?_, fun other h => Navigation.tree_attempt_remove_congr hw h⟩
  · rw [Navigation.remove_refused_iff]
    exact exists_congr fun path => and_congr_right fun _ => Navigation.leadsToInitial_iff
  · intro error h
    obtain ⟨path, hf, he⟩ := Navigation.remove_eq_error.mp h
    obtain ⟨hinitial, before, after, hsplit, hbefore⟩ := List.find?_eq_some_iff_append.mp hf
    obtain ⟨item, hi, hflag⟩ := Navigation.leadsToInitial_iff.mp hinitial
    refine ⟨before, path, after, item, hsplit, hi, hflag, he, fun earlier hm other ho => ?_⟩
    have hpassed : nav.leadsToInitial earlier ≠ true := by simpa using hbefore earlier hm
    exact Bool.eq_false_iff.mpr fun hflag => hpassed (Navigation.leadsToInitial_iff.mpr ⟨other, ho, hflag⟩)
  · intro after h
    have htree : after.tree = nav.tree.prune gone := Navigation.tree_remove hw h
    rw [htree]
    refine ⟨Navigation.remove_eq_ok h, rfl, fun above more hne hm => ?_, fun ids hkept => ?_⟩
    · exact Tree.descend?_prune_gone hne (decide_eq_true hm) more
    · have hkept : ∀ above, above ≠ [] → above <+: ids → gone above = false := fun above hne hp =>
        decide_eq_false (hkept above hne hp)
      constructor
      · intro item hi
        refine ⟨_, by rw [Tree.descend?_prune_kept hkept, hi, Option.map_some], Tree.details_prune _ item, ?_⟩
        rw [Tree.children?_prune, Option.isSome_map]
      · rw [Tree.levelAt?_prune hkept, Option.map_map]
        congr 1
        funext level
        simp [Tree.ids_prune, gone]

end Wayfinding
