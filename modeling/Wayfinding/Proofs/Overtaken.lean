import Wayfinding.Proofs.Publication
import Wayfinding.Proofs.Serial

namespace Wayfinding

namespace Repository

theorem prefix_save (repository : Repository) (now : Timestamp) (nav : Navigation) (id : Identity) :
    repository.eventsOf id <+: (repository.save now nav).repository.eventsOf id := by
  by_cases hw : nav.uncommitted = []
  · exact ⟨[], by rw [save_nothing _ now _ hw, List.append_nil]⟩
  · by_cases hl : (repository.eventsOf nav.id).length = nav.committedVersion
    · obtain ⟨_, _, hevents⟩ := save_accepted _ now _ hw hl
      rw [hevents]
      split
      · exact List.prefix_append _ _
      · exact List.prefix_rfl
    · obtain ⟨_, _, _, _, hstreams⟩ := save_refused _ now _ hw hl
      have hsame : (repository.save now nav).repository.eventsOf id = repository.eventsOf id :=
        congrArg (List.map Envelope.event) (hstreams id)
      exact ⟨[], by rw [hsame, List.append_nil]⟩

theorem navigation_of_refused {repository : Repository} {now : Timestamp} {nav : Navigation}
    {error : NavigationError} (h : (repository.save now nav).outcome = .error error) :
    (repository.save now nav).navigation = nav := by
  unfold save at h ⊢
  split at h
  · cases h
  · simp only at h ⊢
    split at h
    · cases h
    · rename_i hnothing hlength
      rw [if_neg hnothing, if_neg hlength]

theorem length_of_accepted {repository : Repository} {now : Timestamp} {nav : Navigation}
    (h : (repository.save now nav).outcome = .ok ()) (hw : nav.uncommitted ≠ []) :
    (repository.eventsOf nav.id).length = nav.committedVersion := by
  by_cases hl : (repository.eventsOf nav.id).length = nav.committedVersion
  · exact hl
  · obtain ⟨hrefused, _⟩ := save_refused repository now nav hw hl
    rw [h] at hrefused
    cases hrefused

theorem eventsOf_accepted {repository : Repository} {nav : Navigation} (now : Timestamp)
    (hw : nav.uncommitted ≠ []) (hl : (repository.eventsOf nav.id).length = nav.committedVersion) :
    (repository.save now nav).repository.eventsOf nav.id = repository.eventsOf nav.id ++ nav.uncommitted := by
  obtain ⟨_, _, hevents⟩ := save_accepted repository now nav hw hl
  rw [hevents, if_pos rfl]

end Repository

theorem Navigation.committedVersion_attemptAll (nav : Navigation) (intents : List Intent) :
    (nav.attemptAll intents).committedVersion = nav.committedVersion := by
  obtain ⟨events, he⟩ := nav.attemptAll_recorded intents
  unfold committedVersion
  rw [he, recordAll_uncommitted, recordAll_toSnapshot, Snapshot.version_foldl_apply, List.length_append]
  omega

theorem Navigation.committedVersion_ofEvents (id : Identity) (events : List Event) :
    (ofEvents id events).committedVersion = events.length := Snapshot.version_replay id events

namespace Copy

theorem Based.mono {stored more : List Event} {copy : Copy} (h : copy.Based stored) (hp : stored <+: more) :
    copy.Based more := by
  obtain ⟨rest, rfl⟩ := hp
  exact h.extended

/-- What a client holds after a save that went well continues what its copy was based on. -/
theorem Based.navigation_of_save {repository : Repository} {now : Timestamp} {stored : List Event} {copy : Copy}
    (h : copy.Based stored) (hok : (repository.save now copy.navigation).outcome = .ok ()) :
    ∃ done, done <+: stored ∧ copy.navigation.committedVersion = done.length ∧
      (repository.save now copy.navigation).navigation =
        .ofEvents copy.id (done ++ copy.navigation.uncommitted) := by
  obtain ⟨done, hp, _, hstate, hlength⟩ := h.measured
  refine ⟨done, hp, hlength, ?_⟩
  by_cases hw : copy.navigation.uncommitted = []
  · rw [Repository.save_nothing _ now _ hw, Navigation.ofEvents, ← hstate, Navigation.ofSnapshot, ← hw]
  · have hl := Repository.length_of_accepted hok hw
    obtain ⟨_, hsaved, _⟩ := Repository.save_accepted _ now _ hw hl
    rw [hsaved, hstate]
    rfl

/-- What is known of the copy in a client's hands, by whether a deletion overtook it. -/
inductive Tracked (repository : Repository) (copy : Copy) : Bool → Prop where
  | current (h : copy.Based (repository.eventsOf copy.id)) : Tracked repository copy false
  /-- What the copy was based on is gone, and was not nothing. -/
  | overtaken {lost : List Event} (h : copy.Based lost) (opened : 0 < copy.navigation.committedVersion) :
      Tracked repository copy true

section Tracked

variable {repository : Repository} {copy : Copy} {flag : Bool}

theorem Tracked.measured (h : copy.Tracked repository flag) :
    ∃ done, copy.base = .ofEvents copy.id done ∧ copy.navigation.committedVersion = done.length ∧
      copy.navigation.toSnapshot = .replay copy.id (done ++ copy.navigation.uncommitted) ∧
      (flag = false → done <+: repository.eventsOf copy.id) ∧ (flag = true → done ≠ []) := by
  cases h with
  | current h =>
    obtain ⟨done, hp, hb, hstate, hlength⟩ := h.measured
    exact ⟨done, hb, hlength, hstate, fun _ => hp, fun hf => nomatch hf⟩
  | overtaken h opened =>
    obtain ⟨done, _, hb, hstate, hlength⟩ := h.measured
    refine ⟨done, hb, hlength, hstate, (fun hf => nomatch hf), fun _ => ?_⟩
    exact List.ne_nil_of_length_pos (Nat.lt_of_lt_of_eq opened hlength)

theorem Tracked.grown {after : Repository} (h : copy.Tracked repository flag)
    (hp : repository.eventsOf copy.id <+: after.eventsOf copy.id) : copy.Tracked after flag := by
  cases h with
  | current h => exact .current (h.mono hp)
  | overtaken h opened => exact .overtaken h opened

theorem Tracked.tried (h : copy.Tracked repository flag) (intents : List Intent) :
    (copy.tried intents).Tracked repository flag := by
  cases h with
  | current h =>
    have htried := h.tried intents
    rw [← h.id_tried intents] at htried
    exact .current htried
  | overtaken h opened =>
    refine .overtaken (h.tried intents) ?_
    exact Nat.lt_of_lt_of_eq opened (copy.navigation.committedVersion_attemptAll intents).symm

/-- A save that goes well leaves a copy current if it was. -/
theorem Tracked.saved {now : Timestamp} (h : copy.Tracked repository flag)
    (hok : (repository.save now copy.navigation).outcome = .ok ()) :
    (obtained (repository.save now copy.navigation).navigation).Tracked
      (repository.save now copy.navigation).repository flag := by
  cases h with
  | current h =>
    obtain ⟨done, hp, hlength, hsaved⟩ := h.navigation_of_save hok
    refine .current ?_
    have hid : (obtained (repository.save now copy.navigation).navigation).id = copy.id := by
      rw [hsaved]
      exact Navigation.id_ofEvents _ _
    rw [hid, hsaved]
    refine based_obtained ?_
    by_cases hw : copy.navigation.uncommitted = []
    · rw [hw, List.append_nil, Repository.save_nothing _ now _ hw]
      exact hp
    · have hl := Repository.length_of_accepted hok hw
      have hwhole : done = repository.eventsOf copy.id := hp.eq_of_length (hlength.symm.trans hl.symm)
      have hstored := Repository.eventsOf_accepted now hw hl
      exact ⟨[], by rw [List.append_nil, hwhole]; exact hstored.symm⟩
  | overtaken h opened =>
    obtain ⟨done, _, hlength, hsaved⟩ := h.navigation_of_save hok
    rw [hsaved]
    refine .overtaken (based_obtained List.prefix_rfl) ?_
    have hmeasured : (Navigation.ofEvents copy.id (done ++ copy.navigation.uncommitted)).committedVersion =
        (done ++ copy.navigation.uncommitted).length := Navigation.committedVersion_ofEvents _ _
    have hfirst : 0 < done.length := Nat.lt_of_lt_of_eq opened hlength
    rw [obtained, hmeasured, List.length_append]
    exact Nat.lt_add_right _ hfirst

/-- A deletion overtakes the copies that were based on something in the stream that goes. -/
theorem Tracked.erased (h : copy.Tracked repository flag) (id : Identity) :
    copy.Tracked (repository.erased id)
      (flag || (decide (copy.id = id) && decide (0 < copy.navigation.committedVersion))) := by
  cases h with
  | overtaken h opened => exact .overtaken h opened
  | current h =>
    have hevents := repository.eventsOf_erased id copy.id
    by_cases hid : copy.id = id
    · by_cases opened : 0 < copy.navigation.committedVersion
      · simp only [hid, opened, decide_true, Bool.and_self, Bool.or_true]
        exact .overtaken h opened
      · -- A copy that was based on nothing is based on the empty stream as well.
        obtain ⟨done, hp, hb, _, hlength⟩ := h.measured
        have hnone : done = [] := List.length_eq_zero_iff.mp (by omega)
        simp only [opened, decide_false, Bool.and_false, Bool.or_self]
        exact .current ⟨done, hnone ▸ List.nil_prefix, hb, h.navigation_eq⟩
    · simp only [hid, decide_false, Bool.false_and, Bool.or_self]
      rw [if_neg hid] at hevents
      rw [← hevents] at h
      exact .current h

end Tracked

end Copy

namespace World

/-- Whether an action puts a navigation into a client's hands that is new or was just fetched. -/
def obtains (world : World) (client : Nat) : Action → Bool
  | .new other _ => decide (client = other)
  | .fetch other id | .begin other id _ =>
    match world.repository.fetch id with
    | .ok _ => decide (client = other)
    | .error _ => false
  | _ => false

/-- Whether an action deletes the stream that a client's copy is based on. -/
def undercuts (world : World) (client : Nat) : Action → Bool
  | .delete other =>
    match world.held.get? other, world.held.get? client with
    | some gone, some copy => world.repository.streams.contains gone.id &&
      (decide (copy.id = gone.id) && decide (0 < copy.navigation.committedVersion))
    | _, _ => false
  | _ => false

/-- Every copy is tracked, by an account of those that a deletion overtook. -/
def Sound (world : World) (overtaken : Nat → Bool) : Prop :=
  ∀ client copy, world.held.get? client = some copy → copy.Tracked world.repository (overtaken client)

section Sound

variable {world : World} {overtaken after : Nat → Bool} {client : Nat}

theorem Sound.hold (h : Sound world overtaken) {copy : Copy}
    (hothers : ∀ other ≠ client, after other = overtaken other)
    (hcopy : copy.Tracked world.repository (after client)) : Sound (world.hold client copy) after := by
  intro other found hf
  simp only [World.hold, Table.get?_insert] at hf
  split at hf
  · rename_i same
    cases hf
    rw [same]
    exact hcopy
  · rename_i different
    rw [hothers other different]
    exact h other found hf

/-- Who obtains a navigation that continues what is stored has no overtaken copy any more. -/
theorem Sound.obtain (h : Sound world overtaken) (client : Nat) {copy : Copy}
    (hb : copy.Based (world.repository.eventsOf copy.id)) :
    Sound (world.hold client copy) fun other => !decide (other = client) && overtaken other := by
  refine h.hold (fun other hne => by simp [hne]) ?_
  simp only [decide_true, Bool.not_true, Bool.false_and]
  exact .current hb

theorem Sound.drop (h : Sound world overtaken) (hothers : ∀ other ≠ client, after other = overtaken other) :
    Sound (world.drop client) after := by
  intro other found hf
  simp only [World.drop, Table.get?_erase] at hf
  split at hf
  · cases hf
  · rename_i different
    rw [hothers other different]
    exact h other found hf

theorem Sound.commit (h : Sound world overtaken) (client : Nat) (now : Timestamp)
    {refused : World → Copy → World}
    (hr : ∀ world copy, Sound world overtaken → copy.Tracked world.repository (overtaken client) →
      Sound (refused world copy) overtaken) : Sound (world.commit client now refused) overtaken := by
  unfold World.commit
  cases hg : world.held.get? client with
  | none => exact h
  | some copy =>
    let saved := world.repository.save now copy.navigation
    have hgrown : ∀ id, world.repository.eventsOf id <+: saved.repository.eventsOf id :=
      world.repository.prefix_save now copy.navigation
    have hothers (bus : Bus) (commits : List Copy) :
        Sound ⟨saved.repository, bus, world.held, commits⟩ overtaken :=
      fun other found hf => (h other found hf).grown (hgrown found.id)
    have hcopy := h client copy hg
    simp only
    split
    · rename_i hok
      exact (hothers _ _).hold (fun _ _ => rfl) (hcopy.saved hok)
    · rename_i error herror
      have hkept : (world.repository.save now copy.navigation).navigation = copy.navigation :=
        Repository.navigation_of_refused herror
      rw [hkept]
      exact hr _ copy (hothers _ _) (hcopy.grown (hgrown copy.id))

theorem Sound.delete (h : Sound world overtaken) (client : Nat) :
    Sound (world.step (.delete client))
      fun other => overtaken other || world.undercuts other (.delete client) := by
  intro other found hf
  cases hgone : world.held.get? client with
  | none =>
    simp only [step, hgone] at hf ⊢
    simp only [undercuts, hgone, Bool.or_false]
    exact h other found hf
  | some gone =>
    cases hstored : world.repository.streams.contains gone.navigation.id with
    | false =>
      simp only [step, hgone, Repository.delete_erased, hstored, Bool.false_eq_true, if_false] at hf ⊢
      simp only [undercuts, hgone, hf, Copy.id, hstored, Bool.false_and, Bool.or_false]
      exact h other found hf
    | true =>
      simp only [step, hgone, Repository.delete_erased, hstored, if_true] at hf ⊢
      simp only [undercuts, hgone, hf, Copy.id, hstored, Bool.true_and]
      exact (h other found hf).erased gone.navigation.id

end Sound

end World

/-- A world, and an account of the clients whose copy a deletion overtook after they had obtained it. -/
structure Chronicle where
  world : World
  overtaken : Nat → Bool

namespace Chronicle

def start (bus : Bus) : Chronicle := ⟨.start bus, fun _ => false⟩

def step (chronicle : Chronicle) (action : Action) : Chronicle where
  world := chronicle.world.step action
  overtaken client := !chronicle.world.obtains client action &&
    (chronicle.overtaken client || chronicle.world.undercuts client action)

def run (bus : Bus) (actions : List Action) : Chronicle := actions.foldl step (start bus)

theorem world_foldl (chronicle : Chronicle) (actions : List Action) :
    (actions.foldl step chronicle).world = actions.foldl World.step chronicle.world := by
  induction actions generalizing chronicle with
  | nil => rfl
  | cons action rest ih => exact ih (chronicle.step action)

theorem world_run (bus : Bus) (actions : List Action) : (run bus actions).world = .run bus actions :=
  world_foldl (start bus) actions

section Step

variable {world : World} {overtaken : Nat → Bool} {action : Action}

/-- The account stays as it is where nothing is obtained and nothing deleted. -/
theorem overtaken_kept (hobtains : ∀ client, world.obtains client action = false)
    (hundercuts : ∀ client, world.undercuts client action = false) :
    (step ⟨world, overtaken⟩ action).overtaken = overtaken := by
  funext client
  simp only [step, hobtains, hundercuts, Bool.not_false, Bool.true_and, Bool.or_false]

/-- A client that obtains a navigation is struck off the account. -/
theorem overtaken_obtained (client : Nat)
    (hobtains : ∀ other, world.obtains other action = decide (other = client))
    (hundercuts : ∀ other, world.undercuts other action = false) :
    (step ⟨world, overtaken⟩ action).overtaken =
      fun other => !decide (other = client) && overtaken other := by
  funext other
  simp only [step, hobtains, hundercuts, Bool.or_false]

theorem sound_step (h : world.Sound overtaken) (action : Action) :
    (step ⟨world, overtaken⟩ action).world.Sound (step ⟨world, overtaken⟩ action).overtaken := by
  cases action with
  | new client id =>
    rw [overtaken_obtained client (fun _ => rfl) (fun _ => rfl)]
    refine h.obtain client ?_
    exact Copy.based_obtained List.nil_prefix
  | fetch client id =>
    cases hf : world.repository.fetch id with
    | error error =>
      rw [overtaken_kept (fun _ => by simp only [World.obtains, hf]) (fun _ => rfl)]
      simp only [step, World.step, hf]
      exact h
    | ok nav =>
      rw [overtaken_obtained client (fun _ => by simp only [World.obtains, hf]) (fun _ => rfl)]
      simp only [step, World.step, hf]
      exact h.obtain client (Copy.based_of_fetch hf)
  | «try» client intent =>
    rw [overtaken_kept (fun _ => rfl) (fun _ => rfl)]
    simp only [step, World.step]
    split
    · rename_i copy hg
      exact h.hold (fun _ _ => rfl) ((h client copy hg).tried [intent])
    · exact h
  | save client now =>
    rw [overtaken_kept (fun _ => rfl) (fun _ => rfl)]
    exact h.commit client now fun _ _ hs hc => hs.hold (fun _ _ => rfl) hc
  | begin client id work =>
    cases hf : world.repository.fetch id with
    | error error =>
      rw [overtaken_kept (fun _ => by simp only [World.obtains, hf]) (fun _ => rfl)]
      simp only [step, World.step, hf]
      exact h.drop fun _ _ => rfl
    | ok nav =>
      rw [overtaken_obtained client (fun _ => by simp only [World.obtains, hf]) (fun _ => rfl)]
      simp only [step, World.step, hf]
      have hb := Copy.based_of_fetch hf
      split
      · refine h.obtain client ?_
        rw [hb.id_tried]
        exact hb.tried (work.intents nav)
      · refine h.drop fun other hne => ?_
        simp [hne]
  | finish client now =>
    rw [overtaken_kept (fun _ => rfl) (fun _ => rfl)]
    exact h.commit client now fun _ _ hs _ => hs.drop fun _ _ => rfl
  | delete client => exact h.delete client

end Step

theorem sound_run (bus : Bus) (actions : List Action) :
    (run bus actions).world.Sound (run bus actions).overtaken := by
  have key : ∀ chronicle : Chronicle, chronicle.world.Sound chronicle.overtaken →
      (actions.foldl step chronicle).world.Sound (actions.foldl step chronicle).overtaken := by
    induction actions with
    | nil => exact fun _ h => h
    | cons action rest ih => exact fun chronicle h => ih _ (sound_step h action)
  exact key _ fun client copy h => nomatch h

/-- A copy is saved exactly if the stream is as long as the log that it continues. If a deletion overtook the copy,
that need not be the same log. -/
theorem save_goes_by_length (bus : Bus) (actions : List Action) (client : Nat) (copy : Copy) (now : Timestamp)
    (held : (World.run bus actions).held.get? client = some copy) (waits : copy.navigation.uncommitted ≠ []) :
    let overtaken := (run bus actions).overtaken client
    let repository := (World.run bus actions).repository
    let stored := repository.eventsOf copy.id
    let saved := repository.save now copy.navigation
    ∃ done, copy.base = .ofEvents copy.id done ∧ copy.navigation.committedVersion = done.length ∧
      (overtaken = false → done <+: stored) ∧ (overtaken = true → done ≠ []) ∧
      if stored.length = done.length then
        saved.outcome = .ok () ∧
          saved.navigation = .ofEvents copy.id (done ++ copy.navigation.uncommitted) ∧
          saved.repository.fetch copy.id = .ok (.ofEvents copy.id (stored ++ copy.navigation.uncommitted)) ∧
          (overtaken = false → saved.repository.fetch copy.id = .ok saved.navigation)
      else
        saved.outcome = .error (.concurrencyConflict copy.id done.length stored.length) ∧
          saved.navigation = copy.navigation ∧ ∀ id, saved.repository.stream id = repository.stream id := by
  intro overtaken repository stored saved
  have hsound := sound_run bus actions
  rw [world_run] at hsound
  obtain ⟨done, hb, hlength, hstate, hcurrent, hovertaken⟩ := (hsound client copy held).measured
  refine ⟨done, hb, hlength, hcurrent, hovertaken, ?_⟩
  split
  · rename_i hl
    obtain ⟨hok, hsaved, _⟩ := repository.save_accepted now _ waits (hl.trans hlength.symm)
    have hstored : saved.repository.eventsOf copy.id = stored ++ copy.navigation.uncommitted :=
      Repository.eventsOf_accepted now waits (hl.trans hlength.symm)
    have hfetch : saved.repository.fetch copy.id =
        .ok (.ofEvents copy.id (stored ++ copy.navigation.uncommitted)) :=
      Repository.fetch_eq_ok.mpr ⟨by simp [hstored, waits], by rw [hstored]⟩
    have hnav : saved.navigation = .ofEvents copy.id (done ++ copy.navigation.uncommitted) := by
      rw [hsaved, hstate]
      rfl
    refine ⟨hok, hnav, hfetch, fun hf => ?_⟩
    rw [hfetch, hnav, (hcurrent hf).eq_of_length hl.symm]
  · rename_i hl
    have hother : stored.length ≠ copy.navigation.committedVersion := fun he => hl (he.trans hlength)
    obtain ⟨herror, hsaved, _, _, hstreams⟩ := repository.save_refused now _ waits hother
    rw [hlength] at herror
    exact ⟨herror, hsaved, hstreams⟩

/-- A navigation that a client fetches is deleted, and another with its identity takes its place. -/
def recreation (id : Identity) : List Action :=
  [.new 0 id, .try 0 (.create "main" []), .save 0 ⟨0, 0⟩, .fetch 1 id, .delete 0,
   .new 2 id, .try 2 (.create "other" []), .save 2 ⟨1, 0⟩, .try 1 (.append [.new "foo" .label])]

/-- Once the stream in place of the old one has grown beyond it, the overtaken copy is refused. -/
theorem save_goes_by_length_outgrown :
    let world := World.run (.new 4)
      (recreation (.ofSeed 1) ++ [.try 2 (.append [.new "bar" .label]), .save 2 ⟨2, 0⟩])
    ∃ copy, world.held.get? 1 = some copy ∧ copy.navigation.uncommitted ≠ [] ∧
      (world.repository.save ⟨3, 0⟩ copy.navigation).outcome =
        .error (.concurrencyConflict copy.id 1 2) := by
  intro world
  have hrun : ((world.held.get? 1).map fun copy => (copy.navigation.uncommitted.length,
      copy.navigation.committedVersion, (world.repository.eventsOf copy.id).length)) = some (1, 1, 2) := by
    decide +kernel
  obtain ⟨copy, held, hmeasures⟩ := Option.map_eq_some_iff.mp hrun
  simp only [Prod.mk.injEq] at hmeasures
  obtain ⟨hwaits, hversion, hstored⟩ := hmeasures
  have waits : copy.navigation.uncommitted ≠ [] := List.ne_nil_of_length_eq_add_one hwaits
  obtain ⟨done, _, hlength, _, _, hsave⟩ := save_goes_by_length _ _ 1 copy ⟨3, 0⟩ held waits
  have hdone : done.length = 1 := hlength.symm.trans hversion
  have hother : ¬(world.repository.eventsOf copy.id).length = done.length := by omega
  rw [if_neg hother, hdone, hstored] at hsave
  exact ⟨copy, held, waits, hsave.1⟩

/-- An overtaken copy is saved on a stream that it does not know, and another navigation is fetched than was
saved. -/
theorem overtaken_copy_saved :
    let chronicle := run (.new 4) (recreation (.ofSeed 1))
    chronicle.overtaken 1 = true ∧
      ∃ copy, chronicle.world.held.get? 1 = some copy ∧ 0 < copy.navigation.committedVersion ∧
        copy.navigation.uncommitted ≠ [] ∧
        let saved := chronicle.world.repository.save ⟨2, 0⟩ copy.navigation
        saved.outcome = .ok () ∧ saved.repository.fetch copy.id ≠ .ok saved.navigation := by
  intro chronicle
  have hrun : ((chronicle.world.held.get? 1).map fun copy =>
      let saved := chronicle.world.repository.save ⟨2, 0⟩ copy.navigation
      (copy.navigation.committedVersion, copy.navigation.uncommitted.length, saved.outcome.isOk,
        saved.navigation.name, (saved.repository.fetch copy.id).toOption.map fun nav => nav.name)) =
      some (1, 1, true, "main", some "other") := by
    decide +kernel
  obtain ⟨copy, held, hmeasures⟩ := Option.map_eq_some_iff.mp hrun
  simp only [Prod.mk.injEq] at hmeasures
  obtain ⟨hversion, hwaits, hok, hsaved, hfetched⟩ := hmeasures
  refine ⟨by decide +kernel, copy, held, by omega, List.ne_nil_of_length_eq_add_one hwaits, ?_, ?_⟩
  · cases ho : (chronicle.world.repository.save ⟨2, 0⟩ copy.navigation).outcome with
    | ok done => rfl
    | error error =>
      rw [ho] at hok
      cases hok
  · intro he
    rw [he] at hfetched
    simp only [Except.toOption, Option.map_some, hsaved] at hfetched
    exact absurd hfetched (by decide)

end Chronicle

end Wayfinding
