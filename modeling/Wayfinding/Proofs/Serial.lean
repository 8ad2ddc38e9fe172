import Wayfinding.Proofs.Clients

namespace Wayfinding

namespace Navigation

/-- Intents on a navigation that was rebuilt from a log continue the log. -/
theorem attemptAll_ofEvents (id : Identity) (stored : List Event) (intents : List Intent) :
    ((ofEvents id stored).attemptAll intents).toSnapshot =
        .replay id (stored ++ ((ofEvents id stored).attemptAll intents).uncommitted) ∧
      ((ofEvents id stored).attemptAll intents).committedVersion = stored.length := by
  obtain ⟨events, he⟩ := attemptAll_recorded (ofEvents id stored) intents
  rw [he]
  have hwaiting : ((ofEvents id stored).recordAll events).uncommitted = events := by
    rw [recordAll_uncommitted]
    rfl
  have hstate : ((ofEvents id stored).recordAll events).toSnapshot = .replay id (stored ++ events) := by
    rw [recordAll_toSnapshot, Snapshot.replay_append]
    rfl
  refine ⟨by rw [hwaiting, hstate], ?_⟩
  unfold committedVersion
  rw [hwaiting, hstate, Snapshot.version_replay, List.length_append]
  omega

theorem id_ofEvents (id : Identity) (events : List Event) : (ofEvents id events).id = id :=
  Snapshot.id_foldl_apply (.blank id) events

end Navigation

namespace Copy

/-- The copy extends a prefix of the events that are stored. -/
def Based (stored : List Event) (copy : Copy) : Prop :=
  ∃ done, done <+: stored ∧ copy.base = .ofEvents copy.id done ∧
    copy.navigation = copy.base.attemptAll copy.intents

theorem Based.extended {stored more : List Event} {copy : Copy} (h : copy.Based stored) :
    copy.Based (stored ++ more) := by
  obtain ⟨done, hp, hb, hn⟩ := h
  exact ⟨done, hp.trans (List.prefix_append stored more), hb, hn⟩

theorem based_obtained {stored done : List Event} {id : Identity} (hp : done <+: stored) :
    (obtained (.ofEvents id done)).Based stored := by
  refine ⟨done, hp, ?_, rfl⟩
  simp [obtained, Copy.id, Navigation.id_ofEvents]

theorem Based.id_tried {stored : List Event} {copy : Copy} (h : copy.Based stored)
    (intents : List Intent) : (copy.tried intents).id = copy.id := by
  obtain ⟨done, _, hb, hn⟩ := h
  obtain ⟨events, he⟩ := Navigation.attemptAll_recorded copy.navigation intents
  simp only [Copy.id, tried, he, Navigation.recordAll_toSnapshot, Snapshot.id_foldl_apply]

theorem Based.tried {stored : List Event} {copy : Copy} (h : copy.Based stored)
    (intents : List Intent) : (copy.tried intents).Based stored := by
  have hid := h.id_tried intents
  obtain ⟨done, hp, hb, hn⟩ := h
  refine ⟨done, hp, ?_, ?_⟩
  · rw [hid]
    exact hb
  · simp only [Copy.tried, Navigation.attemptAll_append]
    rw [← hn]

/-- What a copy holds is the log that it is based on and what waits, and its committed version measures the
former. -/
theorem Based.measured {stored : List Event} {copy : Copy} (h : copy.Based stored) :
    ∃ done, done <+: stored ∧ copy.base = .ofEvents copy.id done ∧
      copy.navigation.toSnapshot = .replay copy.id (done ++ copy.navigation.uncommitted) ∧
      copy.navigation.committedVersion = done.length := by
  obtain ⟨done, hp, hb, hn⟩ := h
  obtain ⟨hs, hc⟩ := Navigation.attemptAll_ofEvents copy.id done copy.intents
  rw [← hb, ← hn] at hs hc
  exact ⟨done, hp, hb, hs, hc⟩

/-- A copy is based on the whole of what is stored exactly if its committed version says so. -/
theorem Based.base_eq_iff {stored : List Event} {copy : Copy} (h : copy.Based stored) :
    copy.base = .ofEvents copy.id stored ↔ stored.length = copy.navigation.committedVersion := by
  obtain ⟨done, hp, hb, _, hc⟩ := h.measured
  rw [hb, hc]
  constructor
  · intro he
    have hv := congrArg (fun nav : Navigation => nav.version) he
    have hdone := Snapshot.version_replay copy.id done
    have hstored := Snapshot.version_replay copy.id stored
    simp only [Navigation.ofEvents, Navigation.ofSnapshot] at hv
    omega
  · intro hl
    rw [hp.eq_of_length hl.symm]

/-- After a save on top of the whole stream the stream leads to what the copy holds. -/
theorem Based.saved {stored : List Event} {copy : Copy} (h : copy.Based stored)
    (hl : stored.length = copy.navigation.committedVersion) :
    Navigation.ofSnapshot copy.navigation.toSnapshot =
      .ofEvents copy.id (stored ++ copy.navigation.uncommitted) := by
  obtain ⟨done, hp, _, hs, hc⟩ := h.measured
  have hwhole : done = stored := hp.eq_of_length (by omega)
  rw [hs, hwhole]
  rfl

theorem Based.navigation_eq {stored : List Event} {copy : Copy} (h : copy.Based stored) :
    copy.navigation = copy.base.attemptAll copy.intents := by
  obtain ⟨_, _, _, hn⟩ := h
  exact hn

theorem based_of_fetch {repository : Repository} {id : Identity} {nav : Navigation}
    (h : repository.fetch id = .ok nav) :
    (obtained nav).Based (repository.eventsOf (obtained nav).id) := by
  obtain ⟨_, rfl⟩ := Repository.fetch_eq_ok.mp h
  have hid : (obtained (.ofEvents id (repository.eventsOf id))).id = id := Navigation.id_ofEvents _ _
  rw [hid]
  exact based_obtained (List.prefix_refl _)

/-- The events of the saves of one navigation, one after the other. -/
def eventsIn (commits : List Copy) (id : Identity) : List Event :=
  (commits.filter fun copy => copy.id = id).flatMap fun copy => copy.navigation.uncommitted

/-- The intents of the saves of one navigation that had something to save, one after the other. -/
def intentsIn (commits : List Copy) (id : Identity) : List Intent :=
  (commits.filter fun copy => copy.id = id ∧ copy.navigation.uncommitted ≠ []).flatMap Copy.intents

theorem eventsIn_append (commits : List Copy) (copy : Copy) (id : Identity) :
    eventsIn (commits ++ [copy]) id =
      if id = copy.id then eventsIn commits id ++ copy.navigation.uncommitted else eventsIn commits id := by
  by_cases h : id = copy.id
  · simp [eventsIn, h]
  · simp [eventsIn, h, Ne.symm h]

/-- A list of saves each of which, if it had anything to save, started from what the ones before it left. -/
inductive History : List Copy → Prop where
  | nil : History []
  | snoc {commits : List Copy} {copy : Copy} (h : History commits)
      (fits : copy.navigation.uncommitted ≠ [] →
        copy.base = .ofEvents copy.id (eventsIn commits copy.id) ∧
          copy.navigation = copy.base.attemptAll copy.intents) : History (commits ++ [copy])

theorem History.fits_at {commits before after : List Copy} {copy : Copy} (h : History commits)
    (he : commits = before ++ copy :: after) (hw : copy.navigation.uncommitted ≠ []) :
    copy.base = .ofEvents copy.id (eventsIn before copy.id) ∧
      copy.navigation = copy.base.attemptAll copy.intents := by
  induction h generalizing after with
  | nil => simp at he
  | @snoc commits last h fits ih =>
    rcases List.eq_nil_or_concat after with rfl | ⟨init, final, rfl⟩
    · have hlast := List.append_inj_left' he rfl
      have hcopy := List.append_inj_right' he rfl
      cases hcopy
      subst hlast
      exact fits hw
    · have hinit : commits ++ [last] = (before ++ copy :: init) ++ [final] := by simpa using he
      exact ih (List.append_inj_left' hinit rfl)

theorem intentsIn_append (commits : List Copy) (copy : Copy) (id : Identity) :
    intentsIn (commits ++ [copy]) id =
      if id = copy.id ∧ copy.navigation.uncommitted ≠ [] then intentsIn commits id ++ copy.intents
      else intentsIn commits id := by
  by_cases h : id = copy.id ∧ copy.navigation.uncommitted ≠ []
  · simp [intentsIn, h]
  · have hn : ¬(copy.id = id ∧ copy.navigation.uncommitted ≠ []) := fun he => h ⟨he.1.symm, he.2⟩
    rw [if_neg h]
    simp only [intentsIn, List.filter_append, List.filter_cons, decide_eq_true_eq, hn]
    simp

/-- A history is one sequential run of its intents on each navigation. -/
theorem History.sequential {commits : List Copy} (h : History commits) (id : Identity) :
    ((Navigation.new id).attemptAll (intentsIn commits id)).toSnapshot =
        .replay id (eventsIn commits id) ∧
      ((Navigation.new id).attemptAll (intentsIn commits id)).uncommitted = eventsIn commits id := by
  induction h with
  | nil => exact ⟨rfl, rfl⟩
  | @snoc commits copy h fits ih =>
    rw [eventsIn_append, intentsIn_append]
    by_cases hid : id = copy.id
    · subst hid
      by_cases hw : copy.navigation.uncommitted = []
      · simpa [hw] using ih
      · obtain ⟨hbase, hnav⟩ := fits hw
        obtain ⟨hstate, hwaiting⟩ := ih
        have hrun : (Navigation.new copy.id).attemptAll (intentsIn commits copy.id ++ copy.intents) =
            copy.navigation.behind (eventsIn commits copy.id) := by
          rw [Navigation.attemptAll_append, Navigation.attemptAll_eq_behind _ copy.intents, hstate,
            hwaiting, hnav, hbase]
          rfl
        have hsnapshot := (Navigation.attemptAll_ofEvents copy.id (eventsIn commits copy.id)
          copy.intents).1
        rw [← hbase, ← hnav] at hsnapshot
        simp only [ne_eq, hw, not_false_eq_true, and_self, if_true, hrun]
        exact ⟨hsnapshot, rfl⟩
    · simpa [hid] using ih

end Copy

namespace World

/-- What holds of every world without deletions. -/
structure Serial (world : World) : Prop where
  history : Copy.History world.commits
  streams : ∀ id, world.repository.eventsOf id = Copy.eventsIn world.commits id
  based : ∀ client copy, world.held.get? client = some copy →
    copy.Based (world.repository.eventsOf copy.id)

theorem serial_start (bus : Bus) : Serial (start bus) where
  history := .nil
  streams _ := rfl
  based client copy h := by cases h

theorem Serial.hold {world : World} (h : Serial world) (client : Nat) {copy : Copy}
    (hb : copy.Based (world.repository.eventsOf copy.id)) : Serial (world.hold client copy) where
  history := h.history
  streams := h.streams
  based other found hf := by
    simp only [World.hold, Table.get?_insert] at hf
    split at hf
    · cases hf
      exact hb
    · exact h.based other found hf

theorem Serial.drop {world : World} (h : Serial world) (client : Nat) : Serial (world.drop client) where
  history := h.history
  streams := h.streams
  based other found hf := by
    simp only [World.drop, Table.get?_erase] at hf
    split at hf
    · cases hf
    · exact h.based other found hf

/-- A save that went well, of a copy that was based on the whole stream if it had anything to save. -/
theorem Serial.committed {world : World} (h : Serial world) {copy : Copy}
    {repository : Repository} (bus : Bus)
    (fits : copy.navigation.uncommitted ≠ [] →
      copy.base = .ofEvents copy.id (world.repository.eventsOf copy.id) ∧
        copy.navigation = copy.base.attemptAll copy.intents)
    (he : ∀ id, repository.eventsOf id = if id = copy.id then
      world.repository.eventsOf id ++ copy.navigation.uncommitted else world.repository.eventsOf id) :
    Serial ⟨repository, bus, world.held, world.commits ++ [copy]⟩ where
  history := by
    refine .snoc h.history fun hw => ?_
    rw [← h.streams]
    exact fits hw
  streams id := by rw [he, Copy.eventsIn_append, h.streams]
  based client found hf := by
    have hb := h.based client found hf
    rw [he]
    split
    · exact hb.extended
    · exact hb

theorem Serial.commit {world : World} (h : Serial world) (client : Nat) (now : Timestamp)
    {refused : World → Copy → World}
    (hr : ∀ world copy, Serial world → copy.Based (world.repository.eventsOf copy.id) →
      Serial (refused world copy)) : Serial (world.commit client now refused) := by
  unfold World.commit
  cases hg : world.held.get? client with
  | none => exact h
  | some copy =>
    have hbased := h.based client copy hg
    by_cases hw : copy.navigation.uncommitted = []
    · -- Nothing waits, so the copy is what its log leads to.
      obtain ⟨done, hp, _, hstate, _⟩ := hbased.measured
      have hnav : copy.navigation = .ofEvents copy.id done := by
        rw [hw, List.append_nil] at hstate
        rw [Navigation.ofEvents, ← hstate, Navigation.ofSnapshot, ← hw]
      simp only [Repository.save_nothing _ now _ hw]
      have hevents : ∀ id, world.repository.eventsOf id = if id = copy.id then
          world.repository.eventsOf id ++ copy.navigation.uncommitted else world.repository.eventsOf id := by
        intro id
        simp [hw]
      refine (h.committed _ (fun hn => absurd hw hn) hevents).hold client ?_
      · have hid : (Copy.obtained copy.navigation).id = copy.id := rfl
        rw [hid, hnav]
        exact Copy.based_obtained hp
    · by_cases hl : (world.repository.eventsOf copy.id).length = copy.navigation.committedVersion
      · obtain ⟨hok, hsaved, hevents⟩ := Repository.save_accepted _ now _ hw hl
        have hstored : (world.repository.save now copy.navigation).repository.eventsOf copy.id =
            world.repository.eventsOf copy.id ++ copy.navigation.uncommitted :=
          (hevents copy.id).trans (if_pos rfl)
        simp only [hok, hsaved]
        refine (h.committed _ (fun _ => ?_) hevents).hold client ?_
        · exact ⟨hbased.base_eq_iff.mpr hl, hbased.navigation_eq⟩
        · have hb : (Copy.obtained (.ofSnapshot copy.navigation.toSnapshot)).Based
              ((world.repository.save now copy.navigation).repository.eventsOf copy.id) := by
            rw [hstored, hbased.saved hl]
            exact Copy.based_obtained (List.prefix_refl _)
          exact hb
      · obtain ⟨herror, hsaved, _, _, hstreams⟩ := Repository.save_refused _ now _ hw hl
        have hevents : ∀ id, (world.repository.save now copy.navigation).repository.eventsOf id =
            world.repository.eventsOf id := fun id => congrArg (List.map Envelope.event) (hstreams id)
        simp only [herror, hsaved]
        refine hr _ copy ⟨h.history, ?_, ?_⟩ ?_
        · intro id
          rw [← h.streams, ← hevents]
        · intro other found hf
          simp only [hevents]
          exact h.based other found hf
        · simp only [hevents]
          exact hbased

theorem Serial.step {world : World} (h : Serial world) {action : Action}
    (kept : action.deletes = false) : Serial (world.step action) := by
  cases action with
  | new client id =>
    have hn : (Copy.obtained (.new id)).Based (world.repository.eventsOf id) :=
      Copy.based_obtained List.nil_prefix
    exact h.hold client hn
  | fetch client id =>
    simp only [World.step]
    split
    · rename_i nav hf
      exact h.hold client (Copy.based_of_fetch hf)
    · exact h
  | «try» client intent =>
    simp only [World.step]
    split
    · rename_i copy hg
      have hb := h.based client copy hg
      refine h.hold client ?_
      rw [hb.id_tried]
      exact hb.tried [intent]
    · exact h
  | save client now =>
    exact h.commit client now fun _ _ hs hb => hs.hold client hb
  | begin client id work =>
    simp only [World.step]
    split
    · rename_i nav hf
      have hb := Copy.based_of_fetch hf
      split
      · refine h.hold client ?_
        rw [hb.id_tried]
        exact hb.tried (work.intents nav)
      · exact h.drop client
    · exact h.drop client
  | finish client now =>
    exact h.commit client now fun _ _ hs _ => hs.drop client
  | delete client => cases kept

theorem serial_run (bus : Bus) (actions : List Action)
    (kept : ∀ action ∈ actions, action.deletes = false) : Serial (run bus actions) := by
  have key : ∀ world, Serial world → Serial (actions.foldl World.step world) := by
    induction actions with
    | nil => exact fun _ h => h
    | cons action rest ih =>
      obtain ⟨hfirst, hrest⟩ := List.forall_mem_cons.mp kept
      exact fun world h => ih hrest _ (h.step hfirst)
  exact key _ (serial_start bus)

/-- Optimistic concurrency is serializable: each stream is what the successful saves brought, one after the other,
and each of them had started from what the ones before it left. -/
theorem serializable (bus : Bus) (actions : List Action)
    (kept : ∀ action ∈ actions, action.deletes = false) :
    let world := run bus actions
    (∀ id, world.repository.eventsOf id = Copy.eventsIn world.commits id) ∧
    (∀ before copy after, world.commits = before ++ copy :: after → copy.navigation.uncommitted ≠ [] →
      copy.base = .ofEvents copy.id (Copy.eventsIn before copy.id) ∧
        copy.navigation = copy.base.attemptAll copy.intents) ∧
    (∀ client copy now, world.held.get? client = some copy → copy.navigation.uncommitted ≠ [] →
      let stored := world.repository.eventsOf copy.id
      let saved := world.repository.save now copy.navigation
      copy.navigation = copy.base.attemptAll copy.intents ∧
      if copy.base = .ofEvents copy.id stored then
        saved.outcome = .ok () ∧ saved.repository.fetch copy.id = .ok saved.navigation ∧
          saved.navigation = .ofSnapshot copy.navigation.toSnapshot
      else
        saved.outcome = .error (.concurrencyConflict copy.id copy.navigation.committedVersion
            stored.length) ∧ saved.navigation = copy.navigation ∧
          (∀ id, saved.repository.stream id = world.repository.stream id) ∧
          saved.repository.log = world.repository.log ∧
          world.bus.publishAll saved.appended = world.bus) ∧
    ∀ id nav, world.repository.fetch id = .ok nav →
      nav = .ofSnapshot ((Navigation.new id).attemptAll (Copy.intentsIn world.commits id)).toSnapshot := by
  intro world
  have h : Serial world := serial_run bus actions kept
  refine ⟨h.streams, fun before copy after he => h.history.fits_at he, ?_, ?_⟩
  · intro client copy now hg hw stored saved
    have hbased := h.based client copy hg
    refine ⟨hbased.navigation_eq, ?_⟩
    split
    · rename_i hbase
      have hl := hbased.base_eq_iff.mp hbase
      obtain ⟨hok, hsaved, hevents⟩ := Repository.save_accepted _ now _ hw hl
      refine ⟨hok, Repository.fetch_eq_ok.mpr ?_, hsaved⟩
      have hstored : saved.repository.eventsOf copy.id = stored ++ copy.navigation.uncommitted :=
        (hevents copy.id).trans (if_pos rfl)
      rw [hstored]
      exact ⟨by simp [hw], hsaved.trans (hbased.saved hl)⟩
    · rename_i hbase
      have hl := fun hl => hbase (hbased.base_eq_iff.mpr hl)
      obtain ⟨herror, hsaved, happended, hlog, hstreams⟩ := Repository.save_refused _ now _ hw hl
      refine ⟨herror, hsaved, hstreams, hlog, ?_⟩
      have hnone : saved.appended = [] := happended
      rw [hnone]
      rfl
  · intro id nav hf
    obtain ⟨_, rfl⟩ := Repository.fetch_eq_ok.mp hf
    rw [(h.history.sequential id).1, h.streams]
    rfl

/-- Two clients change the same navigation, and the second to save is refused. -/
def race (id : Identity) : List Action :=
  [.new 0 id, .try 0 (.create "main" []), .save 0 ⟨0, 0⟩, .fetch 1 id, .fetch 2 id,
   .try 1 (.append [.new "foo" .label]), .try 2 (.append [.new "bar" .label]),
   .save 1 ⟨1, 0⟩, .save 2 ⟨2, 0⟩]

theorem race_serial :
    (∀ action ∈ race (.ofSeed 1), action.deletes = false) ∧
      (run (.new 4) (race (.ofSeed 1))).commits.length = 2 ∧
      ∀ id, (run (.new 4) (race (.ofSeed 1))).repository.eventsOf id =
        Copy.eventsIn (run (.new 4) (race (.ofSeed 1))).commits id := by
  have kept : ∀ action ∈ race (.ofSeed 1), action.deletes = false := by decide
  exact ⟨kept, by decide +kernel, (serializable (.new 4) (race (.ofSeed 1)) kept).1⟩

end World

end Wayfinding
