import Wayfinding.Proofs.Replay
import Wayfinding.Repository

namespace Wayfinding.Repository

def eventsOf (repository : Repository) (id : Identity) : List Event :=
  (repository.stream id).map Envelope.event

theorem event_envelopes (id : Identity) (now : Timestamp) (version : Nat) (events : List Event) :
    (envelopes id now version events).map Envelope.event = events := by
  induction events generalizing version with
  | nil => rfl
  | cons event rest ih => simp [envelopes, Envelope.ofEvent, ih]

theorem length_eventsOf (repository : Repository) (id : Identity) :
    (repository.eventsOf id).length = (repository.stream id).length := List.length_map ..

theorem fetch_eq (repository : Repository) (id : Identity) :
    repository.fetch id = if repository.eventsOf id = [] then .error (.notFound id)
      else .ok (.ofEvents id (repository.eventsOf id)) := by
  unfold fetch eventsOf
  cases repository.stream id <;> simp

theorem fetch_eq_ok {repository : Repository} {id : Identity} {nav : Navigation} :
    repository.fetch id = .ok nav ↔
      repository.eventsOf id ≠ [] ∧ nav = .ofEvents id (repository.eventsOf id) := by
  rw [fetch_eq]
  split
  · rename_i he
    simp [he]
  · rename_i he
    simp only [Except.ok.injEq, ne_eq, he, not_false_eq_true, true_and]
    exact eq_comm

theorem fetch_eq_error {repository : Repository} {id : Identity} {error : NavigationError} :
    repository.fetch id = .error error ↔ repository.eventsOf id = [] ∧ error = .notFound id := by
  rw [fetch_eq]
  split
  · rename_i he
    simp [he, eq_comm]
  · rename_i he
    simp [he]

theorem eventsOf_insert (repository : Repository) (log : List Envelope) (id other : Identity)
    (stream : List Envelope) :
    eventsOf ⟨repository.streams.insert id stream, log⟩ other =
      if other = id then stream.map Envelope.event else repository.eventsOf other := by
  simp only [eventsOf, Repository.stream, Table.get?_insert]
  split <;> rfl

section Save

variable (repository : Repository) (now : Timestamp) (nav : Navigation)

theorem save_nothing (h : nav.uncommitted = []) :
    repository.save now nav = ⟨repository, nav, [], .ok ()⟩ := by
  simp [save, h]

/-- A save on top of the whole stream appends what waits, and nothing waits afterwards. -/
theorem save_accepted (hw : nav.uncommitted ≠ [])
    (hb : (repository.eventsOf nav.id).length = nav.committedVersion) :
    (repository.save now nav).outcome = .ok () ∧
      (repository.save now nav).navigation = .ofSnapshot nav.toSnapshot ∧
      ∀ id, (repository.save now nav).repository.eventsOf id =
        if id = nav.id then repository.eventsOf id ++ nav.uncommitted else repository.eventsOf id := by
  rw [length_eventsOf] at hb
  have hsave : repository.save now nav = ⟨⟨repository.streams.insert nav.id (repository.stream nav.id ++
      envelopes nav.id now (nav.committedVersion + 1) nav.uncommitted),
        repository.log ++ envelopes nav.id now (nav.committedVersion + 1) nav.uncommitted⟩,
      .ofSnapshot nav.toSnapshot, envelopes nav.id now (nav.committedVersion + 1) nav.uncommitted,
      .ok ()⟩ := by
    simp [save, hw, hb, Navigation.takeUncommitted, Navigation.ofSnapshot]
  rw [hsave]
  refine ⟨rfl, rfl, ?_⟩
  intro id
  rw [eventsOf_insert, List.map_append, event_envelopes]
  split
  · rename_i hid
    subst hid
    rfl
  · rfl

/-- A save on another base is refused: nothing is stored, nothing is to be published, and the navigation
keeps what it has. -/
theorem save_refused (hw : nav.uncommitted ≠ [])
    (hb : (repository.eventsOf nav.id).length ≠ nav.committedVersion) :
    (repository.save now nav).outcome = .error (.concurrencyConflict nav.id nav.committedVersion
        (repository.eventsOf nav.id).length) ∧
      (repository.save now nav).navigation = nav ∧ (repository.save now nav).appended = [] ∧
      (repository.save now nav).repository.log = repository.log ∧
      ∀ id, (repository.save now nav).repository.stream id = repository.stream id := by
  rw [length_eventsOf] at hb ⊢
  have hsave : repository.save now nav = ⟨⟨repository.streams.insert nav.id (repository.stream nav.id),
      repository.log⟩, nav, [], .error (.concurrencyConflict nav.id nav.committedVersion
        (repository.stream nav.id).length)⟩ := by
    simp [save, hw, hb]
  rw [hsave]
  refine ⟨rfl, rfl, rfl, rfl, ?_⟩
  intro id
  simp only [stream, Table.get?_insert]
  split
  · rename_i hid
    subst hid
    rfl
  · rfl

end Save

theorem id_of_mem_envelopes {id : Identity} {now : Timestamp} {version : Nat} {events : List Event}
    {envelope : Envelope} (h : envelope ∈ envelopes id now version events) :
    envelope.id = id ∧ EventFilter.all.accepts envelope = true := by
  induction events generalizing version with
  | nil => cases h
  | cons event rest ih =>
    rcases List.mem_cons.mp h with rfl | h
    · exact ⟨rfl, by simp [EventFilter.all, EventFilter.accepts, Envelope.ofEvent]⟩
    · exact ih h

theorem mem_appended {repository : Repository} {now : Timestamp} {nav : Navigation} {envelope : Envelope}
    (h : envelope ∈ (repository.save now nav).appended) :
    envelope.id = nav.id ∧ EventFilter.all.accepts envelope = true := by
  simp only [save] at h
  split at h
  · cases h
  · split at h
    · exact id_of_mem_envelopes h
    · cases h

/-- A save changes what can be fetched only where it also has something to publish. -/
theorem fetch_save (repository : Repository) (now : Timestamp) (nav : Navigation) (id : Identity) :
    (repository.save now nav).repository.fetch id = repository.fetch id ∨
      ∃ envelope ∈ (repository.save now nav).appended, envelope.id = id := by
  by_cases hw : nav.uncommitted = []
  · left
    rw [save_nothing _ now _ hw]
  · by_cases hb : (repository.eventsOf nav.id).length = nav.committedVersion
    · by_cases hid : id = nav.id
      · right
        obtain ⟨event, rest, he⟩ := List.exists_cons_of_ne_nil hw
        rw [length_eventsOf] at hb
        refine ⟨.ofEvent nav.id (nav.committedVersion + 1) now event, ?_, hid.symm⟩
        simp [save, he, hb, envelopes]
      · left
        obtain ⟨_, _, hevents⟩ := save_accepted _ now _ hw hb
        rw [fetch_eq, fetch_eq, hevents, if_neg hid]
    · left
      obtain ⟨_, _, _, _, hstreams⟩ := save_refused _ now _ hw hb
      rw [fetch, fetch, hstreams]

theorem fetch_save_ne (repository : Repository) (now : Timestamp) {nav : Navigation} {id : Identity}
    (h : id ≠ nav.id) : (repository.save now nav).repository.fetch id = repository.fetch id := by
  refine (fetch_save repository now nav id).resolve_right ?_
  rintro ⟨envelope, he, rfl⟩
  exact h (mem_appended he).1

def erased (repository : Repository) (id : Identity) : Repository :=
  { repository with streams := repository.streams.erase id }

theorem stream_erased (repository : Repository) (id other : Identity) :
    (repository.erased id).stream other = if other = id then [] else repository.stream other := by
  simp only [erased, stream, Table.get?_erase]
  split <;> rfl

theorem eventsOf_erased (repository : Repository) (id other : Identity) :
    (repository.erased id).eventsOf other = if other = id then [] else repository.eventsOf other := by
  unfold eventsOf
  rw [stream_erased]
  split <;> rfl

theorem delete_erased (repository : Repository) (nav : Navigation) :
    repository.delete nav = if repository.streams.contains nav.id then .ok (repository.erased nav.id)
      else .error (.notFound nav.id) := rfl

theorem fetch_delete {repository after : Repository} {nav : Navigation} (h : repository.delete nav = .ok after)
    (id : Identity) : after.fetch id = if id = nav.id then .error (.notFound id) else repository.fetch id := by
  rw [delete_erased] at h
  split at h
  · cases h
    rw [fetch_eq, fetch_eq, eventsOf_erased]
    split
    · simp
    · rfl
  · cases h

end Wayfinding.Repository
