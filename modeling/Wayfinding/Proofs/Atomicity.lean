import Wayfinding.Proofs.Addressable
import Wayfinding.Proofs.InPlace
import Wayfinding.Proofs.Occurrence
import Wayfinding.Proofs.Removal

namespace Wayfinding

/-- A check that fails only with errors of validation. -/
def Validates {α : Type} (check : Except NavigationError α) : Prop :=
  ∀ error, check = .error error → error.isValidation = true

section Validates

variable {α β : Type}

theorem validates_ok (a : α) : Validates (.ok a) := by
  intro error h
  cases h

theorem validates_throw {error : NavigationError} (h : error.isValidation = true) :
    Validates (throw error : Except NavigationError α) := by
  rintro _ ⟨rfl⟩
  exact h

theorem validates_throw_bind {error : NavigationError} {next : α → Except NavigationError β}
    (h : error.isValidation = true) : Validates (throw error >>= next) := by
  rintro _ ⟨rfl⟩
  exact h

theorem Validates.bind {check : Except NavigationError α} {next : α → Except NavigationError β}
    (h : Validates check) (hn : ∀ a, Validates (next a)) : Validates (check >>= next) := by
  cases check with
  | error error =>
    rintro _ ⟨rfl⟩
    exact h error rfl
  | ok a => exact hn a

theorem Validates.ite {p : Prop} [Decidable p] {first second : Except NavigationError α}
    (hf : Validates first) (hs : Validates second) : Validates (if p then first else second) := by
  split
  · exact hf
  · exact hs

end Validates

namespace Tree

theorem validates_item (tree : Tree) (path : String) : Validates (tree.item path) := by
  unfold item
  split
  · exact validates_ok _
  · exact validates_throw rfl

theorem validates_level (tree : Tree) (path : String) : Validates (tree.level path) := by
  unfold level
  split
  · exact validates_ok _
  · intro error h
    cases hi : tree.item path with
    | error other =>
      rw [hi] at h
      cases h
      exact validates_item tree path error hi
    | ok item => simp [hi, Except.map] at h

theorem validates_checkDuplicates (level : Tree) (items : List Item) :
    Validates (level.checkDuplicates items) := by
  induction items generalizing level with
  | nil => exact validates_ok ()
  | cons first rest ih =>
    unfold checkDuplicates
    exact .ite (validates_throw rfl) (ih _)

end Tree

namespace Navigation

mutual

theorem validates_checkItem : (item : Item) → Validates (checkItem item)
  | .leaf details => by
    unfold checkItem
    exact .ite (validates_ok ()) (validates_throw rfl)
  | .group details children => by
    unfold checkItem
    refine .ite ?_ (validates_throw rfl)
    split
    · exact validates_checkItems children
    · rename_i error hd
      exact validates_throw (Tree.validates_checkDuplicates [] children error hd)

theorem validates_checkItems : (items : List Item) → Validates (checkItems items)
  | [] => validates_ok ()
  | item :: rest => by
    unfold checkItems
    split
    · exact validates_checkItems rest
    · rename_i error hi
      exact validates_throw (validates_checkItem item error hi)

end

theorem validates_removable (nav : Navigation) (paths : List String) : Validates (nav.removable paths) := by
  induction paths with
  | nil => exact validates_ok []
  | cons path rest ih =>
    unfold removable
    split
    · refine .ite (validates_throw rfl) ?_
      exact ih.bind fun found => validates_ok (path :: found)
    · exact ih

theorem validates_create (nav : Navigation) (name : String) (items : List Item) :
    Validates (nav.create name items) := by
  unfold create
  refine .ite (validates_throw_bind rfl) (.ite (validates_throw_bind rfl) ?_)
  refine (validates_checkItems items).bind fun _ => ?_
  refine (Tree.validates_checkDuplicates [] items).bind fun _ => ?_
  exact .ite (validates_ok _) (validates_ok _)

theorem validates_insertAt (nav : Navigation) (path : String) (index : Int) (items : List Item) :
    Validates (nav.insertAt path index items) := by
  unfold insertAt
  refine .ite (validates_throw_bind rfl) ?_
  refine (nav.tree.validates_level path).bind fun level => .ite (validates_ok nav) ?_
  refine (validates_checkItems items).bind fun _ => ?_
  exact (level.validates_checkDuplicates items).bind fun _ => validates_ok _

theorem validates_appendAt (nav : Navigation) (path : String) (items : List Item) :
    Validates (nav.appendAt path items) := by
  unfold appendAt
  exact (nav.tree.validates_level path).bind fun level => validates_insertAt nav path level.length items

theorem validates_remove (nav : Navigation) (paths : List String) : Validates (nav.remove paths) := by
  unfold remove
  exact (validates_removable nav paths).bind fun found => .ite (validates_ok nav) (validates_ok _)

theorem validates_sortAt (nav : Navigation) (path : String) (order : List String) :
    Validates (nav.sortAt path order) := by
  unfold sortAt
  exact (nav.tree.validates_level path).bind fun level => .ite (validates_ok _) (validates_ok nav)

/-- An intent is refused by a check of the navigation alone. -/
theorem validates_perform (nav : Navigation) (intent : Intent) : Validates (nav.perform intent) := by
  cases intent with
  | create name items => exact validates_create nav name items
  | insert index items => exact validates_insertAt nav "" index items
  | insertAt path index items => exact validates_insertAt nav path index items
  | prepend items => exact validates_insertAt nav "" 0 items
  | prependAt path items => exact validates_insertAt nav path 0 items
  | append items => exact validates_appendAt nav "" items
  | appendAt path items => exact validates_appendAt nav path items
  | remove paths => exact validates_remove nav paths
  | sort order => exact validates_sortAt nav "" order
  | sortAt path order => exact validates_sortAt nav path order

end Navigation

namespace Snapshot

/-- What an event can change of a state, apart from counting it. -/
def content (state : Snapshot) : String × Tree := (state.name, state.tree)

def Moves (state : Snapshot) (event : Event) : Prop := (state.apply event).content ≠ state.content

/-- Each event of a log moves the state that the events before it leave. -/
def MovesThrough (state : Snapshot) (log : List Event) : Prop :=
  ∀ before event after, log = before ++ event :: after → (before.foldl apply state).Moves event

theorem movesThrough_nil (state : Snapshot) : state.MovesThrough [] := by
  intro before event after h
  cases before <;> cases h

theorem MovesThrough.append {state : Snapshot} {first second : List Event} (hf : state.MovesThrough first)
    (hs : (first.foldl apply state).MovesThrough second) : state.MovesThrough (first ++ second) := by
  intro before event after h
  rcases List.append_eq_append_iff.mp h with ⟨middle, rfl, hm⟩ | ⟨middle, rfl, hm⟩
  · rw [List.foldl_append]
    exact hs middle event after hm
  · cases middle with
    | nil =>
      simp only [List.append_nil] at hs ⊢
      exact hs [] event after hm.symm
    | cons other rest =>
      cases hm
      exact hf before event rest rfl

theorem movesThrough_singleton {state : Snapshot} {event : Event} (h : state.Moves event) :
    state.MovesThrough [event] := by
  intro before other after he
  cases before with
  | nil =>
    cases he
    exact h
  | cons first rest => cases rest <;> cases he

theorem moves_of_tree_ne {state : Snapshot} {event : Event} (h : (state.apply event).tree ≠ state.tree) :
    state.Moves event := fun hc => h (congrArg Prod.snd hc)

end Snapshot

namespace Tree

theorem Rewrites.ne {change : Tree → Tree} {ids : List String} {tree tree' level : Tree}
    (h : Rewrites change ids tree tree') (hl : Tree.levelAt? ids tree = some level)
    (hc : change level ≠ level) : tree' ≠ tree := by
  rintro rfl
  obtain ⟨found, hf, hf'⟩ := h.levelAt?
  rw [hl] at hf hf'
  cases hf
  exact hc (Option.some.inj hf').symm

theorem insert_ne (level : Tree) (index : Nat) {items : List Item} (h : items ≠ []) :
    level.insert index items ≠ level := by
  intro he
  have hlength := (insert_perm level index items).length_eq
  rw [he, List.length_append] at hlength
  exact h (List.eq_nil_of_length_eq_zero (by omega))

/-- Removals bring nothing back. -/
theorem detailsAt?_removeAll {tree : Tree} (hw : WellFormed tree) {paths : List String}
    (hs : ∀ path ∈ paths, ∃ target, Path.segments? path = some target) {ids : List String}
    (h : detailsAt? ids tree = none) :
    detailsAt? ids (paths.foldl (fun tree path => (tree.removePath path).2) tree) = none := by
  induction paths generalizing tree with
  | nil => exact h
  | cons path rest ih =>
    obtain ⟨⟨target, ht⟩, hrest⟩ := List.forall_mem_cons.mp hs
    have hgone : detailsAt? ids (tree.removePath path).2 = none := by
      rw [detailsAt?_removePath hw ht, h]
      exact ite_self none
    exact ih (hw.removePath path) hrest hgone

/-- Of the items to be removed the first one, if no other, was there. -/
theorem removeAll_ne {tree : Tree} (hw : WellFormed tree) {paths : List String} (some : paths ≠ [])
    (found : ∀ path ∈ paths, ∃ item, tree.item path = .ok item) :
    paths.foldl (fun tree path => (tree.removePath path).2) tree ≠ tree := by
  have hs : ∀ path ∈ paths, ∃ target details,
      Path.segments? path = .some target ∧ detailsAt? target tree = .some details := by
    intro path hp
    obtain ⟨item, hi⟩ := found path hp
    obtain ⟨target, ht, hd⟩ := detailsAt?_of_item hi
    exact ⟨target, item.details, ht, hd⟩
  obtain ⟨path, rest, rfl⟩ := List.exists_cons_of_ne_nil some
  obtain ⟨⟨target, details, ht, hd⟩, hrest⟩ := List.forall_mem_cons.mp hs
  have hgone : detailsAt? target (tree.removePath path).2 = none := by
    rw [detailsAt?_removePath hw ht, if_pos List.prefix_rfl]
  have hnone := detailsAt?_removeAll (hw.removePath path)
    (fun path hp => (hrest path hp).imp fun _ h => h.elim fun _ h => h.1) hgone
  intro he
  rw [List.foldl_cons] at he
  rw [he, hd] at hnone
  cases hnone

end Tree

theorem Snapshot.moves_itemsAdded {state : Snapshot} {path : String} {level : Tree} {items : List Item}
    (found : state.tree.level path = .ok level) (some : items ≠ []) (flag : Bool) (index : Nat) :
    (state.apply (.itemsAdded (Tree.setInitial items flag) index path)).tree ≠ state.tree := by
  obtain ⟨ids, hl, hr⟩ := rewrites_itemsAdded found (Tree.setInitial items flag) index
  refine hr.ne hl (Tree.insert_ne level index ?_)
  rw [Tree.setInitial_eq_map]
  simpa using some

/-- The name of a creation is new, and so are its items. -/
theorem Snapshot.movesThrough_creation {state : Snapshot} {name : String} {items : List Item}
    (fresh : state.name = "") (named : Text.trim name ≠ "") :
    state.MovesThrough (eventsOfCreation name items) := by
  have hcreated : state.MovesThrough [.created (Text.trim name)] := by
    refine movesThrough_singleton fun hc => ?_
    exact named ((congrArg Prod.fst hc).trans fresh)
  have hitems : (state.apply (.created (Text.trim name))).MovesThrough
      (if items.isEmpty then [] else [.itemsAdded (Tree.setInitial items true) 0 ""]) := by
    split
    · exact movesThrough_nil _
    · rename_i hsome
      refine movesThrough_singleton (moves_of_tree_ne ?_)
      exact moves_itemsAdded rfl (by simpa using hsome) true 0
  exact hcreated.append hitems

/-- A decision changes the state exactly if it records something, and each of its events does. -/
theorem Decision.moves {state : Snapshot} {events : List Event} (h : Decision state events)
    (hw : state.tree.WellFormed) : state.MovesThrough events ∧
      ((events.foldl Snapshot.apply state).content = state.content ↔ events = []) := by
  have hsingle : ∀ event, (state.apply event).tree ≠ state.tree → state.MovesThrough [event] ∧
      (([event].foldl Snapshot.apply state).content = state.content ↔ [event] = []) := by
    intro event hne
    have hmoves := Snapshot.moves_of_tree_ne hne
    exact ⟨Snapshot.movesThrough_singleton hmoves, fun he => absurd he hmoves, fun he => by cases he⟩
  cases h with
  | idle => exact ⟨state.movesThrough_nil, fun _ => rfl, fun _ => rfl⟩
  | @creation name items fresh named =>
    refine ⟨Snapshot.movesThrough_creation fresh named, fun hc => ?_, fun he => by cases he⟩
    obtain ⟨hname, _⟩ := Snapshot.foldl_creation state name items
    exact absurd (hname.symm.trans ((congrArg Prod.fst hc).trans fresh)) named
  | addition found some => exact hsingle _ (Snapshot.moves_itemsAdded found some false _)
  | removal some loose =>
    apply hsingle
    exact Tree.removeAll_ne hw some fun path hp => (loose path hp).imp fun _ h => h.1
  | @sorting path level order found moves =>
    apply hsingle
    obtain ⟨ids, hl, hr⟩ := Snapshot.rewrites_sorted found (level.sortingFor order)
    exact hr.ne hl (Tree.sort_ne (hw.levelAt? hl).distinct moves)

namespace Course

theorem movesThrough_step {id : Identity} {course : Course} (hf : Faithful id course)
    (hw : course.navigation.tree.WellFormed) (h : (Snapshot.blank id).MovesThrough course.log)
    (move : Move) : (Snapshot.blank id).MovesThrough (course.step move).log := by
  cases move with
  | attempt intent =>
    obtain ⟨events, hdecided, hafter⟩ := Navigation.attempt_decided course.navigation intent
    rw [log_attempt hafter]
    refine h.append ?_
    rw [hf.foldl_log]
    exact (hdecided.moves hw).1
  | drain =>
    rw [log_drain]
    exact h

theorem movesThrough_foldl {id : Identity} {course : Course} (hf : Faithful id course)
    (hw : course.navigation.tree.WellFormed) (h : (Snapshot.blank id).MovesThrough course.log)
    (moves : List Move) : (Snapshot.blank id).MovesThrough (moves.foldl step course).log := by
  induction moves generalizing course with
  | nil => exact h
  | cons move rest ih =>
    exact ih (faithful_foldl hf [move]) (wellFormed_step hw move) (movesThrough_step hf hw h move)

theorem movesThrough_run (id : Identity) (moves : List Move) :
    (Snapshot.blank id).MovesThrough (run id moves).log :=
  movesThrough_foldl (faithful_new id) Tree.wellFormed_nil (Snapshot.movesThrough_nil _) moves

/-- A refused intent, although it is carried out in place, leaves the navigation as it was; an accepted one changes
the name or the tree exactly if it records anything. -/
theorem carried_out_whole (id : Identity) (moves : List Move) (intent : Intent) :
    let course := run id moves
    let nav := course.navigation
    (InPlace.perform intent).runOn nav = InPlace.settle nav (nav.perform intent) ∧
      match (InPlace.perform intent).runOn nav with
      | (.error error, after) => error.isValidation = true ∧ after = nav
      | (.ok (), after) => ∃ events, after.uncommitted = nav.uncommitted ++ events ∧
          after.version = nav.version + events.length ∧ after.id = nav.id ∧
          ((after.name, after.tree) = (nav.name, nav.tree) ↔ events = []) ∧
          (Snapshot.blank id).MovesThrough (course.log ++ events) := by
  intro course nav
  have hrun := InPlace.runOn_perform nav intent
  refine ⟨hrun, ?_⟩
  rw [hrun]
  cases hp : nav.perform intent with
  | error error => exact ⟨Navigation.validates_perform nav intent error hp, rfl⟩
  | ok after =>
    obtain ⟨events, hdecided, rfl⟩ := Navigation.perform_decided hp
    have hw : nav.tree.WellFormed := wellFormed_run id moves
    have hstate := Navigation.recordAll_toSnapshot nav events
    refine ⟨events, Navigation.recordAll_uncommitted nav events, ?_, ?_, ?_, ?_⟩
    · rw [hstate]
      exact Snapshot.version_foldl_apply nav.toSnapshot events
    · rw [hstate]
      exact Snapshot.id_foldl_apply nav.toSnapshot events
    · rw [hstate]
      exact (hdecided.moves hw).2
    · refine (movesThrough_run id moves).append ?_
      rw [(faithful_run id moves).foldl_log]
      exact (hdecided.moves hw).1

end Course

end Wayfinding
