import Wayfinding.Proofs.Decision
import Wayfinding.Proofs.Rewriting

namespace Wayfinding

namespace Snapshot

/-- The level that an event speaks of is there, for reading as for writing. -/
def Resolves (state : Snapshot) : Event → Prop
  | .itemsAdded items index path => ∃ level tree, state.tree.level path = .ok level ∧
      state.tree.updateLevel path (·.insert index items) = .ok tree
  | .sorted sorting path => ∃ level tree, state.tree.existingLevel path = .ok (some level) ∧
      state.tree.updateExistingLevel path (Tree.sort sorting) = .ok tree
  | _ => True

/-- Each event of a log resolves at its position. -/
def ResolvesAll : Snapshot → List Event → Prop
  | _, [] => True
  | state, event :: rest => state.Resolves event ∧ (state.apply event).ResolvesAll rest

theorem replay_append (id : Identity) (first second : List Event) :
    replay id (first ++ second) = second.foldl apply (replay id first) := List.foldl_append

theorem id_foldl_apply (state : Snapshot) (events : List Event) :
    (events.foldl apply state).id = state.id := by
  induction events generalizing state with
  | nil => rfl
  | cons event rest ih => exact ih (state.apply event)

theorem version_foldl_apply (state : Snapshot) (events : List Event) :
    (events.foldl apply state).version = state.version + events.length := by
  induction events generalizing state with
  | nil => rfl
  | cons event rest ih =>
    have hstep : (state.apply event).version = state.version + 1 := rfl
    rw [List.foldl_cons, ih, hstep, List.length_cons]
    omega

theorem version_replay (id : Identity) (events : List Event) :
    (replay id events).version = events.length := by
  simp [replay, version_foldl_apply, blank]

theorem resolvesAll_append (state : Snapshot) (first second : List Event) :
    state.ResolvesAll (first ++ second) ↔
      state.ResolvesAll first ∧ (first.foldl apply state).ResolvesAll second := by
  induction first generalizing state with
  | nil => simp [ResolvesAll]
  | cons event rest ih => simp [ResolvesAll, ih, and_assoc]

/-- An event in the middle of a log resolves in the state that the events before it leave. -/
theorem ResolvesAll.at {state : Snapshot} {before after : List Event} {event : Event}
    (h : state.ResolvesAll (before ++ event :: after)) : (before.foldl apply state).Resolves event :=
  ((resolvesAll_append state before (event :: after)).mp h).2.1

end Snapshot

namespace Tree

theorem ne_nil_of_wouldReorder {level : Tree} {order : List String}
    (h : level.wouldReorder (level.sortingFor order) = true) : level ≠ [] := by
  rintro rfl
  have hnone : sortingFor [] order = [] := by
    have hf : (order.filter fun id => id ∈ ids []) = [] := by simp [ids]
    simp [sortingFor, hf, firstOccurrences]
  simp [wouldReorder, hnone, ids] at h

end Tree

theorem Decision.resolvesAll {state : Snapshot} {events : List Event} (h : Decision state events) :
    state.ResolvesAll events := by
  cases h with
  | idle => trivial
  | creation =>
    unfold eventsOfCreation
    split
    · exact ⟨trivial, trivial⟩
    · exact ⟨trivial, ⟨[], _, rfl, rfl⟩, trivial⟩
  | addition found =>
    obtain ⟨tree, hw⟩ := Tree.updateLevel_of_level found (·.insert _ _)
    exact ⟨⟨_, tree, found, hw⟩, trivial⟩
  | removal => exact ⟨trivial, trivial⟩
  | sorting found moves =>
    have hne := Tree.ne_nil_of_wouldReorder moves
    obtain ⟨tree, hw⟩ := Tree.updateExistingLevel_of_level found (Tree.sort _)
    exact ⟨⟨_, tree, Tree.existingLevel_of_level found hne, hw⟩, trivial⟩

/-- What can be done to a navigation that is held. -/
inductive Move where
  | attempt (intent : Intent)
  /-- The events that wait are handed over. -/
  | drain

/-- A navigation that is held, and the buffers that it has handed over. -/
structure Course where
  navigation : Navigation
  drained : List (List Event)

namespace Course

def new (id : Identity) : Course := ⟨.new id, []⟩

def step (course : Course) : Move → Course
  | .attempt intent => { course with navigation := course.navigation.attempt intent }
  | .drain =>
    let (events, nav) := course.navigation.takeUncommitted
    ⟨nav, course.drained ++ [events]⟩

def run (id : Identity) (moves : List Move) : Course := moves.foldl step (new id)

/-- All events that were recorded: those handed over and then those that wait. -/
def log (course : Course) : List Event := course.drained.flatten ++ course.navigation.uncommitted

/-- The log of a course leads to its navigation, and each of its events resolves. -/
structure Faithful (id : Identity) (course : Course) : Prop where
  replayed : Snapshot.replay id course.log = course.navigation.toSnapshot
  resolved : (Snapshot.blank id).ResolvesAll course.log

theorem Faithful.foldl_log {id : Identity} {course : Course} (h : Faithful id course) :
    course.log.foldl Snapshot.apply (.blank id) = course.navigation.toSnapshot := h.replayed

theorem log_attempt {course : Course} {intent : Intent} {events : List Event}
    (h : course.navigation.attempt intent = course.navigation.recordAll events) :
    (course.step (.attempt intent)).log = course.log ++ events := by
  simp [step, log, h, Navigation.recordAll_uncommitted]

theorem log_drain (course : Course) : (course.step .drain).log = course.log := by
  simp [step, log, Navigation.takeUncommitted]

theorem faithful_attempt {id : Identity} {course : Course} (h : Faithful id course) (intent : Intent) :
    Faithful id (course.step (.attempt intent)) := by
  obtain ⟨events, hdecided, hafter⟩ := Navigation.attempt_decided course.navigation intent
  have hlog := log_attempt hafter
  constructor
  · rw [hlog, Snapshot.replay_append, h.replayed]
    simp only [step, hafter]
    exact (Navigation.recordAll_toSnapshot course.navigation events).symm
  · rw [hlog]
    refine (Snapshot.resolvesAll_append _ _ _).mpr ⟨h.resolved, ?_⟩
    rw [h.foldl_log]
    exact hdecided.resolvesAll

theorem faithful_drain {id : Identity} {course : Course} (h : Faithful id course) :
    Faithful id (course.step .drain) := by
  constructor
  · rw [log_drain, h.replayed]
    rfl
  · rw [log_drain]
    exact h.resolved

theorem faithful_foldl {id : Identity} {course : Course} (h : Faithful id course) (moves : List Move) :
    Faithful id (moves.foldl step course) := by
  induction moves generalizing course with
  | nil => exact h
  | cons move rest ih =>
    cases move with
    | attempt intent => exact ih (faithful_attempt h intent)
    | drain => exact ih (faithful_drain h)

theorem faithful_new (id : Identity) : Faithful id (new id) where
  replayed := rfl
  resolved := by simp [log, new, Navigation.new, Navigation.ofSnapshot, Snapshot.ResolvesAll]

theorem faithful_run (id : Identity) (moves : List Move) : Faithful id (run id moves) :=
  faithful_foldl (faithful_new id) moves

/-- Folding the log of a held navigation gives the navigation. Its version counts the log, its committed
version counts the events handed over, and each event finds the level that it speaks of. -/
theorem replay_log (id : Identity) (moves : List Move) :
    let course := run id moves
    (Navigation.ofEvents id course.log).toSnapshot = course.navigation.toSnapshot ∧
      course.navigation.version = course.log.length ∧
      course.navigation.uncommitted.length ≤ course.navigation.version ∧
      course.navigation.committedVersion = course.drained.flatten.length ∧
      ∀ before event after, course.log = before ++ event :: after →
        (Snapshot.replay id before).Resolves event := by
  intro course
  have h : Faithful id course := faithful_run id moves
  have hversion : course.navigation.version = course.log.length := by
    rw [← h.replayed]
    exact Snapshot.version_replay id course.log
  have hlength : course.log.length =
      course.drained.flatten.length + course.navigation.uncommitted.length := List.length_append
  refine ⟨h.replayed, hversion, by omega, ?_, ?_⟩
  · unfold Navigation.committedVersion
    omega
  · intro before event after he
    have hresolved := h.resolved
    rw [he] at hresolved
    exact hresolved.at

end Course

end Wayfinding
