import Wayfinding.Navigation

namespace Wayfinding

def eventsOfCreation (name : String) (items : List Item) : List Event :=
  .created (Text.trim name) ::
    if items.isEmpty then [] else [.itemsAdded (Tree.setInitial items true) 0 ""]

/-- The events that an intent may record in a state. -/
inductive Decision (state : Snapshot) : List Event → Prop where
  | idle : Decision state []
  | creation {name : String} {items : List Item} (fresh : state.name = "")
      (named : Text.trim name ≠ "") (sound : Navigation.checkItems items = .ok ())
      (distinct : Tree.checkDuplicates [] items = .ok ()) : Decision state (eventsOfCreation name items)
  | addition {path : String} {level : Tree} {items : List Item} {index : Nat}
      (found : state.tree.level path = .ok level) (some : items ≠ [])
      (sound : Navigation.checkItems items = .ok ()) (distinct : level.checkDuplicates items = .ok ())
      (inside : index ≤ level.length) :
      Decision state [.itemsAdded (Tree.setInitial items false) index path]
  | removal {paths : List String} (some : paths ≠ [])
      (loose : ∀ path ∈ paths, ∃ item, state.tree.item path = .ok item ∧ item.initial = false) :
      Decision state [.itemsRemoved paths]
  | sorting {path : String} {level : Tree} {order : List String}
      (found : state.tree.level path = .ok level)
      (moves : level.wouldReorder (level.sortingFor order) = true) :
      Decision state [.sorted (level.sortingFor order) path]

namespace Navigation

def recordAll (nav : Navigation) (events : List Event) : Navigation := events.foldl record nav

theorem recordAll_toSnapshot (nav : Navigation) (events : List Event) :
    (nav.recordAll events).toSnapshot = events.foldl Snapshot.apply nav.toSnapshot := by
  induction events generalizing nav with
  | nil => rfl
  | cons event rest ih => exact ih (nav.record event)

theorem recordAll_uncommitted (nav : Navigation) (events : List Event) :
    (nav.recordAll events).uncommitted = nav.uncommitted ++ events := by
  induction events generalizing nav with
  | nil => simp [recordAll]
  | cons event rest ih =>
    have hrest := ih (nav.record event)
    simpa [recordAll, record] using hrest

/-- What an intent did, if it was accepted. -/
def Decided (nav after : Navigation) : Prop :=
  ∃ events, Decision nav.toSnapshot events ∧ after = nav.recordAll events

theorem bind_ok {α β ε : Type} {x : Except ε α} {next : α → Except ε β} {b : β} :
    (x >>= next) = .ok b ↔ ∃ a, x = .ok a ∧ next a = .ok b := by
  cases x <;> simp [bind, Except.bind]

/-- What comes behind a refusal that was not made. -/
theorem refusal_ok {α β ε : Type} {p : Prop} [Decidable p] {error : ε} {refused : α → Except ε β}
    {next : Except ε β} {b : β} :
    (if p then (throw error >>= refused) else next) = .ok b ↔ ¬p ∧ next = .ok b := by
  by_cases hp : p <;> simp [hp, throw, throwThe, MonadExceptOf.throw, bind, Except.bind]

theorem create_eq_ok {nav after : Navigation} {name : String} {items : List Item} :
    nav.create name items = .ok after ↔ nav.name = "" ∧ Text.trim name ≠ "" ∧
      checkItems items = .ok () ∧ Tree.checkDuplicates [] items = .ok () ∧
      after = nav.recordAll (eventsOfCreation name items) := by
  have hrecorded : (if items.isEmpty then pure (nav.record (.created (Text.trim name)))
      else pure ((nav.record (.created (Text.trim name))).record
        (.itemsAdded (Tree.setInitial items true) 0 "")) : Except NavigationError Navigation) =
      .ok (nav.recordAll (eventsOfCreation name items)) := by
    unfold eventsOfCreation
    split <;> rfl
  simp only [create, refusal_ok, bind_ok, hrecorded, Snapshot.isCreated, decide_eq_true_eq, ne_eq,
    Decidable.not_not, Except.ok.injEq]
  constructor
  · rintro ⟨hfresh, hnamed, _, hsound, _, hdistinct, h⟩
    exact ⟨hfresh, hnamed, hsound, hdistinct, h.symm⟩
  · rintro ⟨hfresh, hnamed, hsound, hdistinct, h⟩
    exact ⟨hfresh, hnamed, (), hsound, (), hdistinct, h.symm⟩

theorem create_decided {nav after : Navigation} {name : String} {items : List Item}
    (h : nav.create name items = .ok after) : Decided nav after := by
  obtain ⟨hfresh, hnamed, hsound, hdistinct, h⟩ := create_eq_ok.mp h
  exact ⟨_, .creation hfresh hnamed hsound hdistinct, h⟩

theorem insertAt_decided {nav after : Navigation} {path : String} {index : Int} {items : List Item}
    (h : nav.insertAt path index items = .ok after) : Decided nav after := by
  simp only [insertAt, refusal_ok, bind_ok] at h
  obtain ⟨_, level, hfound, h⟩ := h
  split at h
  · cases h
    exact ⟨[], .idle, rfl⟩
  · rename_i hitems
    simp only [bind_ok] at h
    obtain ⟨_, hsound, _, hdistinct, h⟩ := h
    cases h
    have hsome : items ≠ [] := by simpa using hitems
    exact ⟨_, .addition hfound hsome hsound hdistinct (Nat.min_le_right _ _), rfl⟩

theorem appendAt_decided {nav after : Navigation} {path : String} {items : List Item}
    (h : nav.appendAt path items = .ok after) : Decided nav after := by
  simp only [appendAt, bind_ok] at h
  obtain ⟨_, _, h⟩ := h
  exact insertAt_decided h

/-- What may be removed is there and is not initial. -/
theorem removable_loose {nav : Navigation} {paths found : List String}
    (h : nav.removable paths = .ok found) :
    ∀ path ∈ found, ∃ item, nav.tree.item path = .ok item ∧ item.initial = false := by
  induction paths generalizing found with
  | nil =>
    cases h
    simp
  | cons path rest ih =>
    unfold removable at h
    cases hi : nav.tree.item path with
    | error error =>
      simp only [hi] at h
      exact ih h
    | ok item =>
      simp only [hi] at h
      split at h
      · cases h
      · rename_i hinitial
        cases hr : nav.removable rest with
        | error error => simp [hr, Except.map] at h
        | ok others =>
          simp only [hr, Except.map, Except.ok.injEq] at h
          subst h
          intro other ho
          rcases List.mem_cons.mp ho with rfl | ho
          · exact ⟨item, hi, by simpa using hinitial⟩
          · exact ih hr other ho

theorem remove_decided {nav after : Navigation} {paths : List String}
    (h : nav.remove paths = .ok after) : Decided nav after := by
  simp only [remove, bind_ok] at h
  obtain ⟨found, hfound, h⟩ := h
  split at h
  · cases h
    exact ⟨[], .idle, rfl⟩
  · rename_i hnone
    cases h
    have hsome : found ≠ [] := by simpa using hnone
    exact ⟨_, .removal hsome (removable_loose hfound), rfl⟩

theorem sortAt_decided {nav after : Navigation} {path : String} {order : List String}
    (h : nav.sortAt path order = .ok after) : Decided nav after := by
  simp only [sortAt, bind_ok] at h
  obtain ⟨level, hfound, h⟩ := h
  split at h
  · rename_i hmoves
    cases h
    exact ⟨_, .sorting hfound hmoves, rfl⟩
  · cases h
    exact ⟨[], .idle, rfl⟩

/-- Every intent that is accepted comes down to a decision. -/
theorem perform_decided {nav after : Navigation} {intent : Intent}
    (h : nav.perform intent = .ok after) : Decided nav after := by
  unfold perform at h
  cases intent with
  | create name items => exact create_decided h
  | insert index items => exact insertAt_decided h
  | insertAt path index items => exact insertAt_decided h
  | prepend items => exact insertAt_decided h
  | prependAt path items => exact insertAt_decided h
  | append items => exact appendAt_decided h
  | appendAt path items => exact appendAt_decided h
  | remove paths => exact remove_decided h
  | sort order => exact sortAt_decided h
  | sortAt path order => exact sortAt_decided h

/-- An intent that is refused decides nothing. -/
theorem attempt_decided (nav : Navigation) (intent : Intent) : Decided nav (nav.attempt intent) := by
  cases h : nav.perform intent with
  | error error =>
    refine ⟨[], .idle, ?_⟩
    simp [attempt, h, Except.toOption, recordAll]
  | ok after =>
    have ha : nav.attempt intent = after := by simp [attempt, h, Except.toOption]
    rw [ha]
    exact perform_decided h

/-- The navigation with these events waiting in front of its own. -/
def behind (earlier : List Event) (nav : Navigation) : Navigation :=
  { nav with uncommitted := earlier ++ nav.uncommitted }

theorem record_behind (earlier : List Event) (nav : Navigation) (event : Event) :
    (nav.behind earlier).record event = (nav.record event).behind earlier := by
  simp [record, behind, apply]

theorem map_bind {α β γ ε : Type} (x : Except ε α) (next : α → Except ε β) (f : β → γ) :
    (x >>= next).map f = x >>= fun a => (next a).map f := by
  cases x <;> rfl

theorem create_behind (earlier : List Event) (nav : Navigation) (name : String) (items : List Item) :
    (nav.behind earlier).create name items = (nav.create name items).map (behind earlier) := by
  simp only [create, record_behind, apply_ite (Except.map (behind earlier)), map_bind]
  rfl

theorem insertAt_behind (earlier : List Event) (nav : Navigation) (path : String) (index : Int)
    (items : List Item) :
    (nav.behind earlier).insertAt path index items =
      (nav.insertAt path index items).map (behind earlier) := by
  simp only [insertAt, record_behind, apply_ite (Except.map (behind earlier)), map_bind]
  rfl

theorem appendAt_behind (earlier : List Event) (nav : Navigation) (path : String) (items : List Item) :
    (nav.behind earlier).appendAt path items = (nav.appendAt path items).map (behind earlier) := by
  simp only [appendAt, insertAt_behind, map_bind]
  rfl

theorem removable_behind (earlier : List Event) (nav : Navigation) (paths : List String) :
    (nav.behind earlier).removable paths = nav.removable paths := by
  induction paths with
  | nil => rfl
  | cons path rest ih =>
    unfold removable
    rw [ih]
    rfl

theorem remove_behind (earlier : List Event) (nav : Navigation) (paths : List String) :
    (nav.behind earlier).remove paths = (nav.remove paths).map (behind earlier) := by
  simp only [remove, removable_behind, record_behind, apply_ite (Except.map (behind earlier)), map_bind]
  rfl

theorem sortAt_behind (earlier : List Event) (nav : Navigation) (path : String) (order : List String) :
    (nav.behind earlier).sortAt path order = (nav.sortAt path order).map (behind earlier) := by
  simp only [sortAt, record_behind, apply_ite (Except.map (behind earlier)), map_bind]
  rfl

/-- An intent does not look at what waits to be saved. -/
theorem perform_behind (earlier : List Event) (nav : Navigation) (intent : Intent) :
    (nav.behind earlier).perform intent = (nav.perform intent).map (behind earlier) := by
  cases intent with
  | create name items => exact create_behind earlier nav name items
  | insert index items => exact insertAt_behind earlier nav "" index items
  | insertAt path index items => exact insertAt_behind earlier nav path index items
  | prepend items => exact insertAt_behind earlier nav "" 0 items
  | prependAt path items => exact insertAt_behind earlier nav path 0 items
  | append items => exact appendAt_behind earlier nav "" items
  | appendAt path items => exact appendAt_behind earlier nav path items
  | remove paths => exact remove_behind earlier nav paths
  | sort order => exact sortAt_behind earlier nav "" order
  | sortAt path order => exact sortAt_behind earlier nav path order

theorem attempt_behind (earlier : List Event) (nav : Navigation) (intent : Intent) :
    (nav.behind earlier).attempt intent = (nav.attempt intent).behind earlier := by
  simp only [attempt, perform_behind]
  cases nav.perform intent <;> rfl

/-- The navigation after some intents, each of which may be refused. -/
def attemptAll (nav : Navigation) (intents : List Intent) : Navigation := intents.foldl attempt nav

theorem attemptAll_cons (nav : Navigation) (intent : Intent) (rest : List Intent) :
    nav.attemptAll (intent :: rest) = (nav.attempt intent).attemptAll rest := rfl

theorem attemptAll_append (nav : Navigation) (first second : List Intent) :
    nav.attemptAll (first ++ second) = (nav.attemptAll first).attemptAll second := List.foldl_append

/-- Whatever a run of intents comes to, it was recorded. -/
theorem attemptAll_recorded (nav : Navigation) (intents : List Intent) :
    ∃ events, nav.attemptAll intents = nav.recordAll events := by
  induction intents generalizing nav with
  | nil => exact ⟨[], rfl⟩
  | cons intent rest ih =>
    obtain ⟨first, _, hfirst⟩ := attempt_decided nav intent
    obtain ⟨others, hothers⟩ := ih (nav.attempt intent)
    refine ⟨first ++ others, ?_⟩
    have hstep : nav.attemptAll (intent :: rest) = (nav.attempt intent).attemptAll rest := rfl
    rw [hstep, hothers, hfirst]
    exact List.foldl_append.symm

theorem attemptAll_behind (earlier : List Event) (nav : Navigation) (intents : List Intent) :
    (nav.behind earlier).attemptAll intents = (nav.attemptAll intents).behind earlier := by
  induction intents generalizing nav with
  | nil => rfl
  | cons intent rest ih =>
    simp only [attemptAll, List.foldl_cons, attempt_behind]
    exact ih (nav.attempt intent)

/-- Intents run the same whatever waits to be saved, and add to it. -/
theorem attemptAll_eq_behind (nav : Navigation) (intents : List Intent) :
    nav.attemptAll intents =
      ((ofSnapshot nav.toSnapshot).attemptAll intents).behind nav.uncommitted := by
  rw [← attemptAll_behind]
  simp [behind, ofSnapshot]

end Navigation
end Wayfinding
