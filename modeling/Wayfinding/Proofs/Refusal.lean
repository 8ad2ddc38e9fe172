import Wayfinding.Proofs.Streams

namespace Wayfinding.Repository

inductive Operation where
  | save (nav : Navigation)
  | fetch (id : Identity)
  | use (id : Identity) (change : Navigation → Except NavigationError Navigation)
  | delete (nav : Navigation)

structure Effect where
  repository : Repository
  /-- What is to be published. -/
  appended : List Envelope
  outcome : Except NavigationError Unit

def perform (repository : Repository) (now : Timestamp) : Operation → Effect
  | .save nav =>
    let saved := repository.save now nav
    ⟨saved.repository, saved.appended, saved.outcome⟩
  | .fetch id => ⟨repository, [], (repository.fetch id).map fun _ => ()⟩
  | .use id change =>
    let used := repository.use now id change
    ⟨used.repository, used.appended, used.outcome.map fun _ => ()⟩
  | .delete nav =>
    match repository.delete nav with
    | .ok after => ⟨after, [], .ok ()⟩
    | .error error => ⟨repository, [], .error error⟩

def reached (history : List (Timestamp × Operation)) : Repository :=
  history.foldl (fun repository entry => (repository.perform entry.1 entry.2).repository) empty

/-- The navigation that an operation gets as far as saving. -/
def saves? (repository : Repository) : Operation → Option Navigation
  | .save nav => some nav
  | .use id change => ((repository.fetch id).bind change).toOption
  | _ => none

/-- Nothing that can be asked of two repositories tells them apart. -/
structure Undisturbed (before after : Repository) : Prop where
  size : after.size = before.size
  streams : ∀ id, after.stream id = before.stream id
  fetches : ∀ id, after.fetch id = before.fetch id
  deletions : ∀ nav, (after.delete nav).map (fun _ => ()) = (before.delete nav).map fun _ => ()
  log : after.log = before.log

theorem undisturbed_refl (repository : Repository) : Undisturbed repository repository :=
  ⟨rfl, fun _ => rfl, fun _ => rfl, fun _ => rfl, rfl⟩

/-- The repository with a stream for an identity, which is empty if there was none. -/
def opened (repository : Repository) (id : Identity) : Repository :=
  { repository with streams := repository.streams.insert id (repository.stream id) }

section Opened

variable (repository : Repository) (id : Identity)

theorem stream_opened (other : Identity) : (repository.opened id).stream other = repository.stream other := by
  simp only [opened, stream, Table.get?_insert]
  split
  · rename_i same
    rw [same, Option.getD_some]
  · rfl

theorem fetch_opened (other : Identity) : (repository.opened id).fetch other = repository.fetch other := by
  simp only [fetch, stream_opened]

theorem size_opened : (repository.opened id).size =
    if repository.streams.contains id then repository.size else repository.size + 1 :=
  repository.streams.size_insert id _

theorem delete_eq (nav : Navigation) : (repository.delete nav).map (fun _ => ()) =
    if repository.streams.contains nav.id then .ok () else .error (.notFound nav.id) := by
  unfold delete
  split <;> rfl

theorem contains_opened (other : Identity) : (repository.opened id).streams.contains other =
    if other = id then true else repository.streams.contains other := by
  simp only [opened, Table.contains, Table.get?_insert]
  split <;> rfl

theorem undisturbed_opened : Undisturbed repository (repository.opened id) ↔
    repository.streams.contains id = true := by
  constructor
  · intro h
    have hsize := h.size
    rw [size_opened] at hsize
    split at hsize
    · assumption
    · omega
  · intro h
    refine ⟨?_, repository.stream_opened id, repository.fetch_opened id, ?_, rfl⟩
    · rw [size_opened, if_pos h]
    · intro nav
      rw [delete_eq, delete_eq, contains_opened]
      split
      · rename_i same
        rw [same, h]
      · rfl

end Opened

variable {repository : Repository} {now : Timestamp} {operation : Operation} {error : NavigationError}

/-- A save that fails was refused, and all it does is open the stream. -/
theorem save_failed {nav : Navigation} (h : (repository.save now nav).outcome = .error error) :
    repository.save now nav = ⟨repository.opened nav.id, nav, [], .error error⟩ := by
  unfold save at h ⊢
  split
  · simp_all
  · rename_i hwaiting
    simp only [hwaiting, Bool.false_eq_true, if_false] at h ⊢
    split
    · rename_i hbase
      simp [hbase] at h
    · rename_i hbase
      rw [if_neg hbase] at h
      cases h
      rfl

theorem use_failed {id : Identity} {change : Navigation → Except NavigationError Navigation}
    (h : (repository.use now id change).outcome.map (fun _ => ()) = .error error) :
    (repository.use now id change).appended = [] ∧ (repository.use now id change).repository =
      match repository.saves? (.use id change) with
      | some nav => repository.opened nav.id
      | none => repository := by
  unfold use saves? at *
  cases hc : (repository.fetch id).bind change with
  | error refusal => simp [hc, Except.toOption]
  | ok nav =>
    simp only [hc, Except.toOption] at h ⊢
    cases ho : (repository.save now nav).outcome with
    | ok done => simp [ho, Except.map] at h
    | error refusal => simp [save_failed ho]

/-- An operation that fails leaves everything as it was, or opens the stream of what it could not save. -/
theorem perform_failed (h : (repository.perform now operation).outcome = .error error) :
    (repository.perform now operation).appended = [] ∧ (repository.perform now operation).repository =
      match repository.saves? operation with
      | some nav => repository.opened nav.id
      | none => repository := by
  cases operation with
  | save nav =>
    have hsave : repository.save now nav = ⟨repository.opened nav.id, nav, [], .error error⟩ :=
      save_failed h
    simp [perform, saves?, hsave]
  | fetch id => exact ⟨rfl, rfl⟩
  | use id change => exact use_failed h
  | delete nav =>
    cases hd : repository.delete nav with
    | ok after => simp [perform, hd] at h
    | error refusal => simp [perform, saves?, hd]

/-- An operation that failed left streams, log and client as they were, and nothing at all tells of it, unless it
had come to a save of a navigation without a stream. -/
theorem failure_undisturbed_iff (h : (repository.perform now operation).outcome = .error error) :
    let after := (repository.perform now operation).repository
    (repository.perform now operation).appended = [] ∧ after.log = repository.log ∧
    (∀ id, after.stream id = repository.stream id ∧ after.fetch id = repository.fetch id) ∧
    (∀ nav, operation = .save nav → (repository.save now nav).navigation = nav) ∧
    (Undisturbed repository after ↔
      ∀ nav, repository.saves? operation = some nav → repository.streams.contains nav.id = true) ∧
    ∀ nav, repository.saves? operation = some nav → repository.streams.contains nav.id = false →
      after.size = repository.size + 1 ∧ repository.delete nav = .error (.notFound nav.id) ∧
      ∃ emptied, after.delete nav = .ok emptied := by
  intro after
  obtain ⟨happended, hafter⟩ := perform_failed h
  have hkept : ∀ nav, operation = .save nav → (repository.save now nav).navigation = nav := by
    rintro nav rfl
    rw [save_failed h]
  cases hs : repository.saves? operation with
  | none =>
    rw [hs] at hafter
    have hsame : after = repository := hafter
    rw [hsame]
    refine ⟨happended, rfl, fun id => ⟨rfl, rfl⟩, hkept, ?_, ?_⟩
    · simp [undisturbed_refl]
    · intro nav hnone
      cases hnone
  | some nav =>
    rw [hs] at hafter
    have hopened : after = repository.opened nav.id := hafter
    rw [hopened]
    refine ⟨happended, rfl, ?_, hkept, ?_, ?_⟩
    · exact fun id => ⟨repository.stream_opened nav.id id, repository.fetch_opened nav.id id⟩
    · simp only [Option.some.injEq, forall_eq']
      exact repository.undisturbed_opened nav.id
    · rintro _ ⟨rfl⟩ hn
      have hc := repository.contains_opened nav.id nav.id
      rw [if_pos rfl] at hc
      refine ⟨?_, ?_, ?_⟩
      · rw [size_opened, hn]
        rfl
      · simp [delete, hn]
      · exact ⟨_, if_pos hc⟩

/-- A navigation is created, saved and deleted. -/
def deletedHistory (id : Identity) : List (Timestamp × Operation) :=
  let created := (Navigation.new id).attempt (.create "main" [])
  [(⟨0, 0⟩, .save created), (⟨1, 0⟩, .delete created)]

/-- A copy from before the deletion, with a change. -/
def staleCopy (id : Identity) : Navigation :=
  (Navigation.ofEvents id [.created "main"]).attempt (.append [.new "foo" .label])

/-- The late save of the copy is refused, and yet a navigation is counted afterwards. -/
theorem refused_save_counted :
    let before := reached (deletedHistory (.ofSeed 1))
    let effect := before.perform ⟨2, 0⟩ (.save (staleCopy (.ofSeed 1)))
    effect.outcome = .error (.concurrencyConflict (.ofSeed 1) 1 0) ∧
      before.size = 0 ∧ effect.repository.size = 1 ∧ ¬Undisturbed before effect.repository := by
  intro before effect
  have hbefore : before.size = 0 := by decide +kernel
  have hafter : effect.repository.size = 1 := by decide +kernel
  refine ⟨by rfl, hbefore, hafter, fun h => ?_⟩
  have hsame := h.size
  rw [hbefore, hafter] at hsame
  cases hsame

theorem refused_save_opens :
    let before := reached (deletedHistory (.ofSeed 1))
    let stale := staleCopy (.ofSeed 1)
    (before.perform ⟨2, 0⟩ (.save stale)).outcome = .error (.concurrencyConflict (.ofSeed 1) 1 0) ∧
      before.streams.contains stale.id = false ∧
      before.delete stale = .error (.notFound stale.id) ∧
      ∃ emptied, (before.perform ⟨2, 0⟩ (.save stale)).repository.delete stale = .ok emptied := by
  intro before stale
  have refused : (before.perform ⟨2, 0⟩ (.save stale)).outcome =
      .error (.concurrencyConflict (.ofSeed 1) 1 0) := by rfl
  have absent : before.streams.contains stale.id = false := by decide +kernel
  obtain ⟨_, _, _, _, _, hopens⟩ := failure_undisturbed_iff refused
  exact ⟨refused, absent, (hopens stale rfl absent).2⟩

end Wayfinding.Repository
