import Wayfinding.Bus
import Wayfinding.Proofs.Refusal

namespace Wayfinding

namespace Repository

/-- The part of the log that is about one navigation. -/
def logOf (repository : Repository) (id : Identity) : List Envelope :=
  repository.log.filter fun envelope => envelope.id = id

/-- Envelopes that are numbered on from the end of a stream. -/
def continuation (repository : Repository) (id : Identity) (now : Timestamp) (events : List Event) :
    List Envelope := envelopes id now ((repository.stream id).length + 1) events

/-- The repository with events at the end of a stream and of the log. -/
def extended (repository : Repository) (id : Identity) (now : Timestamp) (events : List Event) :
    Repository :=
  { streams := repository.streams.insert id (repository.stream id ++ repository.continuation id now events)
    log := repository.log ++ repository.continuation id now events }

section Contents

variable (repository : Repository) (id : Identity) (now : Timestamp) (events : List Event)

theorem version_envelopes (version : Nat) :
    (envelopes id now version events).map Envelope.version = List.range' version events.length := by
  induction events generalizing version with
  | nil => rfl
  | cons event rest ih => simp [envelopes, Envelope.ofEvent, ih, List.range'_succ]

theorem length_continuation : (repository.continuation id now events).length = events.length := by
  have h := congrArg List.length (event_envelopes id now ((repository.stream id).length + 1) events)
  rwa [List.length_map] at h

theorem id_of_mem_continuation {envelope : Envelope}
    (h : envelope ∈ repository.continuation id now events) : envelope.id = id :=
  (id_of_mem_envelopes h).1

theorem stream_extended (other : Identity) : (repository.extended id now events).stream other =
    if other = id then repository.stream id ++ repository.continuation id now events
    else repository.stream other := by
  simp only [extended, stream, Table.get?_insert]
  split <;> rfl

theorem logOf_extended (other : Identity) : (repository.extended id now events).logOf other =
    if other = id then repository.logOf id ++ repository.continuation id now events
    else repository.logOf other := by
  have hlog : (repository.extended id now events).logOf other = repository.logOf other ++
      (repository.continuation id now events).filter fun envelope => envelope.id = other :=
    List.filter_append ..
  have hid : ∀ envelope ∈ repository.continuation id now events, envelope.id = id :=
    fun _ he => repository.id_of_mem_continuation id now events he
  rw [hlog]
  split
  · rename_i same
    subst same
    congr 1
    exact List.filter_eq_self.mpr fun envelope he => decide_eq_true (hid envelope he)
  · rename_i different
    have hnone : ((repository.continuation id now events).filter fun envelope => envelope.id = other) =
        [] := by
      refine List.filter_eq_nil_iff.mpr fun envelope he => ?_
      rw [hid envelope he]
      simpa using Ne.symm different
    rw [hnone, List.append_nil]

end Contents

/-- What an operation can do to a repository, and what there is to publish then. -/
inductive Change (repository : Repository) (operation : Operation) : List Envelope → Repository → Prop where
  | none : Change repository operation [] repository
  | opened (id : Identity) : Change repository operation [] (repository.opened id)
  /-- Only a deletion that succeeds takes a stream away. -/
  | erased (nav : Navigation) (deletes : operation = .delete nav)
      (succeeds : repository.delete nav = .ok (repository.erased nav.id)) :
      Change repository operation [] (repository.erased nav.id)
  | extended (id : Identity) (now : Timestamp) (events : List Event) :
      Change repository operation (repository.continuation id now events)
        (repository.extended id now events)

theorem change_save (repository : Repository) (now : Timestamp) (nav : Navigation) (operation : Operation) :
    Change repository operation (repository.save now nav).appended
      (repository.save now nav).repository := by
  unfold save
  split
  · exact .none
  · simp only
    split
    · rename_i hbase
      rw [← hbase]
      exact .extended nav.id now nav.uncommitted
    · exact .opened nav.id

theorem change_perform (repository : Repository) (now : Timestamp) (operation : Operation) :
    Change repository operation (repository.perform now operation).appended
      (repository.perform now operation).repository := by
  cases operation with
  | save nav => exact repository.change_save now nav _
  | fetch id => exact .none
  | use id change =>
    simp only [perform, use]
    split
    · exact .none
    · exact repository.change_save now _ _
  | delete nav =>
    simp only [perform]
    cases hd : repository.delete nav with
    | error error => exact .none
    | ok after =>
      have hafter : after = repository.erased nav.id := by
        unfold delete at hd
        split at hd <;> cases hd
        rfl
      subst hafter
      exact .erased nav rfl hd

/-- A stream is numbered from 1, belongs to its navigation, and ends the part of the log about it. -/
structure Kept (repository : Repository) (id : Identity) : Prop where
  numbered : (repository.stream id).map Envelope.version = List.range' 1 (repository.stream id).length
  owned : ∀ envelope ∈ repository.stream id, envelope.id = id
  logged : repository.stream id <:+ repository.logOf id

section Change

variable {repository after : Repository} {operation : Operation} {appended : List Envelope} {id : Identity}

theorem Change.log (h : Change repository operation appended after) :
    after.log = repository.log ++ appended := by
  cases h with
  | none => exact (List.append_nil _).symm
  | opened id => exact (List.append_nil _).symm
  | erased nav => exact (List.append_nil _).symm
  | extended id now events => rfl

theorem kept_of_nil (h : repository.stream id = []) : repository.Kept id := by
  refine ⟨?_, ?_, ?_⟩ <;> rw [h]
  · rfl
  · simp
  · exact List.nil_suffix

theorem Kept.congr (h : repository.Kept id) (hs : after.stream id = repository.stream id)
    (hl : after.logOf id = repository.logOf id) : after.Kept id := by
  refine ⟨?_, ?_, ?_⟩
  · rw [hs]
    exact h.numbered
  · rw [hs]
    exact h.owned
  · rw [hs, hl]
    exact h.logged

theorem Kept.extended (h : repository.Kept id) (now : Timestamp) (events : List Event) :
    (repository.extended id now events).Kept id := by
  have hs := repository.stream_extended id now events id
  have hl := repository.logOf_extended id now events id
  rw [if_pos rfl] at hs hl
  refine ⟨?_, ?_, ?_⟩
  · rw [hs, List.map_append, h.numbered, continuation, version_envelopes, ← continuation,
      List.length_append, length_continuation, Nat.add_comm _ 1, List.range'_append_1]
  · rw [hs]
    exact List.forall_mem_append.mpr
      ⟨h.owned, fun envelope he => repository.id_of_mem_continuation id now events he⟩
  · rw [hs, hl]
    obtain ⟨older, ho⟩ := h.logged
    exact ⟨older, by rw [← ho, List.append_assoc]⟩

theorem Kept.change (hk : repository.Kept id) (h : Change repository operation appended after) :
    after.Kept id := by
  cases h with
  | none => exact hk
  | opened other => exact hk.congr (repository.stream_opened other id) rfl
  | erased nav =>
    have hs := repository.stream_erased nav.id id
    split at hs
    · exact kept_of_nil hs
    · exact hk.congr hs rfl
  | extended other now events =>
    by_cases same : id = other
    · subst same
      exact hk.extended now events
    · have hs := repository.stream_extended other now events id
      have hl := repository.logOf_extended other now events id
      rw [if_neg same] at hs hl
      exact hk.congr hs hl

/-- While a navigation is not deleted, the log has nothing about it that its stream does not have. -/
theorem Change.whole (h : Change repository operation appended after)
    (hw : repository.stream id = repository.logOf id)
    (spared : ∀ nav, operation = .delete nav → nav.id = id →
      ∃ error, repository.delete nav = .error error) : after.stream id = after.logOf id := by
  cases h with
  | none => exact hw
  | opened other => exact (repository.stream_opened other id).trans hw
  | erased nav deletes succeeds =>
    have hs := repository.stream_erased nav.id id
    split at hs
    · rename_i same
      obtain ⟨error, he⟩ := spared nav deletes same.symm
      rw [succeeds] at he
      cases he
    · exact hs.trans hw
  | extended other now events =>
    rw [repository.stream_extended other now events id, repository.logOf_extended other now events id]
    split
    · rename_i same
      rw [← same, hw]
    · exact hw

end Change

/-- No deletion of the navigation succeeds in a history. -/
def Spares (id : Identity) : Repository → List (Timestamp × Operation) → Prop
  | _, [] => True
  | repository, (now, operation) :: rest =>
    (∀ nav, operation = .delete nav → nav.id = id → ∃ error, repository.delete nav = .error error) ∧
      Spares id (repository.perform now operation).repository rest

end Repository

/-- A repository with the bus that it publishes on. -/
structure Publisher where
  repository : Repository
  bus : Bus
  /-- What was published, the oldest first. -/
  published : List Envelope

namespace Publisher

open Repository

def start (bus : Bus) : Publisher := ⟨.empty, bus, []⟩

def publish (publisher : Publisher) (envelope : Envelope) : Publisher :=
  { publisher with
    bus := (publisher.bus.publish envelope).2
    published := publisher.published ++ [envelope] }

/-- One call. What it stored is published afterwards, one envelope after the other. -/
def call (publisher : Publisher) (entry : Timestamp × Operation) : Publisher :=
  let effect := publisher.repository.perform entry.1 entry.2
  effect.appended.foldl publish { publisher with repository := effect.repository }

def run (bus : Bus) (history : List (Timestamp × Operation)) : Publisher := history.foldl call (start bus)

theorem foldl_publish (publisher : Publisher) (envelopes : List Envelope) :
    envelopes.foldl publish publisher = { publisher with
      bus := publisher.bus.publishAll envelopes
      published := publisher.published ++ envelopes } := by
  induction envelopes generalizing publisher with
  | nil => simp [Bus.publishAll]
  | cons envelope rest ih =>
    rw [List.foldl_cons, ih]
    simp [publish, Bus.publishAll]

theorem repository_call (publisher : Publisher) (entry : Timestamp × Operation) :
    (publisher.call entry).repository = (publisher.repository.perform entry.1 entry.2).repository := by
  unfold call
  rw [foldl_publish]

theorem change_call (publisher : Publisher) (entry : Timestamp × Operation) :
    ∃ appended, Change publisher.repository entry.2 appended (publisher.call entry).repository ∧
      (publisher.call entry).published = publisher.published ++ appended ∧
      (publisher.call entry).bus = publisher.bus.publishAll appended := by
  refine ⟨(publisher.repository.perform entry.1 entry.2).appended, ?_, ?_, ?_⟩
  · rw [repository_call]
    exact publisher.repository.change_perform entry.1 entry.2
  · unfold call
    rw [foldl_publish]
  · unfold call
    rw [foldl_publish]

/-- Every stream is kept in order, and the log, what was published and the bus tell the same. -/
structure Agrees (bus : Bus) (publisher : Publisher) : Prop where
  kept : ∀ id, publisher.repository.Kept id
  published : publisher.published = publisher.repository.log
  bus : publisher.bus = bus.publishAll publisher.repository.log

theorem agrees_start (bus : Bus) : Agrees bus (start bus) where
  kept _ := kept_of_nil rfl
  published := rfl
  bus := rfl

theorem Agrees.call {bus : Bus} {publisher : Publisher} (h : Agrees bus publisher)
    (entry : Timestamp × Operation) : Agrees bus (publisher.call entry) := by
  obtain ⟨appended, hchange, hpublished, hbus⟩ := publisher.change_call entry
  refine ⟨fun id => (h.kept id).change hchange, ?_, ?_⟩
  · rw [hpublished, hchange.log, h.published]
  · rw [hbus, hchange.log, h.bus]
    exact List.foldl_append.symm

theorem Agrees.foldl {bus : Bus} {publisher : Publisher} (h : Agrees bus publisher)
    (history : List (Timestamp × Operation)) : Agrees bus (history.foldl Publisher.call publisher) := by
  induction history generalizing publisher with
  | nil => exact h
  | cons entry rest ih => exact ih (h.call entry)

theorem log_foldl (publisher : Publisher) (history : List (Timestamp × Operation)) :
    publisher.repository.log <+: (history.foldl call publisher).repository.log := by
  induction history generalizing publisher with
  | nil => exact List.prefix_rfl
  | cons entry rest ih =>
    obtain ⟨appended, hchange, _⟩ := publisher.change_call entry
    refine List.IsPrefix.trans ?_ (ih (publisher.call entry))
    rw [hchange.log]
    exact List.prefix_append _ _

theorem whole_foldl (publisher : Publisher) {id : Identity}
    (h : publisher.repository.stream id = publisher.repository.logOf id)
    {history : List (Timestamp × Operation)} (spared : Spares id publisher.repository history) :
    (history.foldl call publisher).repository.stream id =
      (history.foldl call publisher).repository.logOf id := by
  induction history generalizing publisher with
  | nil => exact h
  | cons entry rest ih =>
    obtain ⟨hfirst, hrest⟩ := spared
    obtain ⟨appended, hchange, _⟩ := publisher.change_call entry
    rw [← repository_call] at hrest
    exact ih _ (hchange.whole h hfirst) hrest

/-- Each stream is numbered 1, 2, 3 and so on and ends the part of the log that is about its navigation. What was
published is the log, and the bus is as the log has left it. -/
theorem streams_log_bus (bus : Bus) (history : List (Timestamp × Operation)) :
    let publisher := run bus history
    let repository := publisher.repository
    (∀ id, (repository.stream id).map Envelope.version = List.range' 1 (repository.stream id).length ∧
      (∀ envelope ∈ repository.stream id, envelope.id = id) ∧
      repository.stream id <:+ repository.log.filter (fun envelope => envelope.id = id) ∧
      (Spares id .empty history →
        repository.stream id = repository.log.filter fun envelope => envelope.id = id)) ∧
    (∀ more, repository.log <+: (run bus (history ++ more)).repository.log) ∧
    publisher.published = repository.log ∧ publisher.bus = bus.publishAll repository.log := by
  intro publisher repository
  have h : Agrees bus publisher := (agrees_start bus).foldl history
  refine ⟨fun id => ?_, fun more => ?_, h.published, h.bus⟩
  · obtain ⟨hnumbered, howned, hlogged⟩ := h.kept id
    exact ⟨hnumbered, howned, hlogged, fun spared => whole_foldl (start bus) rfl spared⟩
  · have happend : run bus (history ++ more) = more.foldl call publisher := List.foldl_append
    rw [happend]
    exact log_foldl publisher more

end Publisher

end Wayfinding
