import Wayfinding.Creation
import Wayfinding.Proofs.Following
import Wayfinding.Proofs.WellFormed

namespace Wayfinding

open Repository

namespace Creation

/-- The second half of the handling of a creation, when the index has found its name free. -/
def carryOut (creation : Creation) (repository : Repository) (now : Timestamp) (fresh : Identity) : Handled :=
  match (Navigation.new fresh).create (Text.trim creation.name) creation.items with
  | .error error => ⟨repository, [], .error (.ofCause error)⟩
  | .ok nav =>
    let saved := repository.save now nav
    ⟨saved.repository, saved.appended,
      match saved.outcome with
      | .ok () => .ok fresh
      | .error error => .error ((Failure.ofCause error).within "save navigation")⟩

/-- To handle a creation is to ask for its name and, if it is free, to carry the creation out. -/
theorem handle_eq (creation : Creation) (lookup : Lookup) (repository : Repository) (now : Timestamp)
    (fresh : Identity) : creation.handle lookup repository now fresh =
      match creation.freeName lookup with
      | .error error => ⟨repository, [], .error (.ofCause error)⟩
      | .ok _ => creation.carryOut repository now fresh := by
  cases hn : creation.freeName lookup with
  | error error => simp only [handle, build, hn, Except.bind]
  | ok name =>
    have hname : name = Text.trim creation.name := by
      unfold freeName at hn
      dsimp only at hn
      split at hn
      · cases hn
      · cases hn
        rfl
    cases hc : (Navigation.new fresh).create (Text.trim creation.name) creation.items with
    | error error => simp only [handle, build, hn, hname, Except.bind, carryOut, hc]
    | ok nav =>
      cases hs : (repository.save now nav).outcome with
      | error error => simp only [handle, build, hn, hname, Except.bind, carryOut, hc, hs]
      | ok _ => simp only [handle, build, hn, hname, Except.bind, carryOut, hc, hs]

variable {repository : Repository} {now : Timestamp} {fresh : Identity}

/-- A creation under an identity without a stream is never refused by the repository: either the navigation can
not be created, and nothing happens, or its events become its stream. -/
theorem carryOut_cases (creation : Creation) (now : Timestamp)
    (hs : repository.streams.get? fresh = none) :
    (∃ error, creation.carryOut repository now fresh = ⟨repository, [], .error (.ofCause error)⟩) ∨
      ∃ events, events = eventsOfCreation (Text.trim creation.name) creation.items ∧
        creation.carryOut repository now fresh =
          ⟨repository.extended fresh now events, repository.continuation fresh now events, .ok fresh⟩ := by
  unfold carryOut
  cases hc : (Navigation.new fresh).create (Text.trim creation.name) creation.items with
  | error error => exact .inl ⟨error, rfl⟩
  | ok nav =>
    right
    obtain ⟨_, _, _, _, rfl⟩ := Navigation.create_eq_ok.mp hc
    refine ⟨_, rfl, ?_⟩
    generalize hevents : eventsOfCreation (Text.trim creation.name) creation.items = events
    have hsome : events ≠ [] := by
      rw [← hevents]
      exact List.cons_ne_nil _ _
    have huncommitted : ((Navigation.new fresh).recordAll events).uncommitted = events :=
      Navigation.recordAll_uncommitted _ _
    have hstate := Navigation.recordAll_toSnapshot (Navigation.new fresh) events
    have hid : ((Navigation.new fresh).recordAll events).id = fresh := by
      rw [hstate]
      exact Snapshot.id_foldl_apply _ _
    have hbase : ((Navigation.new fresh).recordAll events).committedVersion = 0 := by
      have hversion : ((Navigation.new fresh).recordAll events).version = 0 + events.length := by
        rw [hstate]
        exact Snapshot.version_foldl_apply _ _
      rw [Navigation.committedVersion, huncommitted, hversion, Nat.zero_add, Nat.sub_self]
    have hnone : repository.stream fresh = [] := by
      rw [Repository.stream, hs]
      rfl
    simp [Repository.save, huncommitted, hsome, hid, hbase, hnone, extended, continuation]

/-- All that the events of a creation tell the index. -/
theorem creations_continuation (name : String) (items : List Item) :
    Lookup.creations (repository.continuation fresh now (eventsOfCreation (Text.trim name) items)) =
      [(Text.trim name, fresh)] := by
  unfold eventsOfCreation
  rw [Text.trim_trim]
  split <;> rfl

/-- What was carried out can be fetched under its name. -/
theorem fetch_extended (name : String) (items : List Item) (hs : repository.streams.get? fresh = none) :
    ∃ nav, (repository.extended fresh now (eventsOfCreation (Text.trim name) items)).fetch fresh = .ok nav ∧
      nav.name = Text.trim name := by
  have hnone : repository.stream fresh = [] := by
    rw [Repository.stream, hs]
    rfl
  have hevents : (repository.extended fresh now (eventsOfCreation (Text.trim name) items)).eventsOf fresh =
      eventsOfCreation (Text.trim name) items := by
    rw [eventsOf, stream_extended, if_pos rfl, hnone, List.nil_append, continuation, event_envelopes]
  refine ⟨_, fetch_eq_ok.mpr ⟨?_, rfl⟩, ?_⟩
  · rw [hevents]
    exact List.cons_ne_nil _ _
  · rw [hevents]
    have hname := (Snapshot.foldl_creation (.blank fresh) (Text.trim name) items).1
    rw [Text.trim_trim] at hname
    exact hname

end Creation

/-- A directory, and the creations that are asked of it. -/
structure Office where
  directory : Directory
  /-- The creations whose names were free when they began, by those who asked for them. -/
  underway : Table Nat Creation
  /-- The creations that came to an end, and how, the oldest first. -/
  ended : List (Creation × Except Failure Identity)

namespace Office

inductive Action where
  /-- The first half of a creation: the index is asked for the name. -/
  | begin (client : Nat) (creation : Creation)
  /-- The second half: the navigation is created under a fresh identity and saved. -/
  | finish (client : Nat) (now : Timestamp) (fresh : Identity)
  /-- Publishes the oldest envelope that is still to be published. -/
  | publish
  /-- The index and its readers go on. -/
  | move (move : Feed.Move)

/-- The identity that an action hands out. -/
def Action.identity? : Action → Option Identity
  | finish _ _ fresh => some fresh
  | _ => none

def identities (actions : List Action) : List Identity := actions.filterMap Action.identity?

/-- A repository with nothing in it, and an index that follows it. -/
def start (bus : Bus) (errorBuffer : Nat) : Office :=
  ⟨.attach (.start bus) .empty errorBuffer, .empty, []⟩

def step (office : Office) : Action → Office
  | .begin client creation =>
    match creation.freeName office.directory.feed.state with
    | .error error => { office with ended := office.ended ++ [(creation, .error (.ofCause error))] }
    | .ok _ => { office with underway := office.underway.insert client creation }
  | .finish client now fresh =>
    match office.underway.get? client with
    | none => office
    | some creation =>
      let handled := creation.carryOut office.directory.repository now fresh
      { directory := office.directory.adopt handled.repository handled.appended
        underway := office.underway.erase client
        ended := office.ended ++ [(creation, handled.outcome)] }
  | .publish => { office with directory := office.directory.step .publish }
  | .move move => { office with directory := office.directory.step (.move move) }

def run (office : Office) (actions : List Action) : Office := actions.foldl step office

def repository (office : Office) : Repository := office.directory.repository

def index (office : Office) : Lookup := office.directory.feed.state

/-- The errors of the index that came about, the oldest first. -/
def errors (office : Office) : List ProjectionError := office.directory.feed.errors

def savedAs? (entry : Creation × Except Failure Identity) : Option (String × Identity) :=
  entry.2.toOption.map (Text.trim entry.1.name, ·)

/-- The navigations that were created and saved, with their trimmed names, the oldest first. -/
def saved (office : Office) : List (String × Identity) := office.ended.filterMap savedAs?

/-- Nothing of this name is on its way to the index: everything that was stored has come to it, and no creation
of the name is between its two halves. -/
def Clear (office : Office) (name : String) : Prop :=
  office.directory.Drained ∧ ∀ client creation, office.underway.get? client = some creation →
    Text.trim creation.name ≠ name

/-- Each creation among these actions begins when nothing of its name is on its way to the index. -/
def Paced (office : Office) (actions : List Action) : Prop :=
  ∀ before client creation rest, actions = before ++ .begin client creation :: rest →
    (office.run before).Clear (Text.trim creation.name)

/-- Each creation among these actions begins when everything that was stored has come to the index, whatever other
creations are under way. -/
def Unhurried (office : Office) (actions : List Action) : Prop :=
  ∀ before client creation rest, actions = before ++ .begin client creation :: rest →
    (office.run before).directory.Drained

/-- A creation that nothing comes between is handled in one go. -/
theorem begin_finish (office : Office) (client : Nat) (creation : Creation) (now : Timestamp)
    (fresh : Identity) (hn : office.underway.get? client = none) :
    let handled := creation.handle office.index office.repository now fresh
    let after := (office.step (.begin client creation)).step (.finish client now fresh)
    after.directory = office.directory.adopt handled.repository handled.appended ∧
      after.ended = office.ended ++ [(creation, handled.outcome)] := by
  rw [Creation.handle_eq]
  simp only [step, index]
  cases creation.freeName office.directory.feed.state with
  | error error => simp [hn, Directory.adopt, repository]
  | ok name => simp [repository]

/-- The log tells of the creations that were saved, each with an identity of its own, and nothing else is
stored. -/
structure Sound (office : Office) : Prop where
  faithful : Directory.Faithful [] .empty office.directory
  announced : Lookup.creations office.repository.log = office.saved
  distinct : (office.saved.map Prod.snd).Nodup
  stored : ∀ entry ∈ office.saved, ∃ nav, office.repository.fetch entry.2 = .ok nav ∧ nav.name = entry.1
  unused : ∀ id, id ∉ office.saved.map Prod.snd → office.repository.streams.get? id = none
  size : office.repository.size = office.saved.length

/-- All that an action can do: the index goes on, a creation ends with a failure, begins, or is carried out. -/
inductive Progress (office : Office) : Action → Office → Prop where
  | followed {action : Action} (directory : Directory) (faithful : directory.Faithful [] .empty)
      (unchanged : directory.repository = office.repository)
      (told : office.errors <+: directory.feed.errors) :
      Progress office action { office with directory := directory }
  | refused {action : Action} (underway : Table Nat Creation)
      (fewer : ∀ client creation, underway.get? client = some creation →
        office.underway.get? client = some creation)
      (creation : Creation) (failure : Failure) :
      Progress office action
        { office with underway := underway, ended := office.ended ++ [(creation, .error failure)] }
  | begun (client : Nat) (creation : Creation)
      (free : office.index.name? (Text.trim creation.name) = none) :
      Progress office (.begin client creation)
        { office with underway := office.underway.insert client creation }
  | carriedOut (client : Nat) (now : Timestamp) (fresh : Identity) (creation : Creation)
      (asked : office.underway.get? client = some creation)
      (events : List Event) (decided : events = eventsOfCreation (Text.trim creation.name) creation.items) :
      Progress office (.finish client now fresh)
        { directory := office.directory.adopt (office.repository.extended fresh now events)
            (office.repository.continuation fresh now events)
          underway := office.underway.erase client
          ended := office.ended ++ [(creation, .ok fresh)] }

theorem saved_refused (ended : List (Creation × Except Failure Identity)) (creation : Creation)
    (failure : Failure) : (ended ++ [(creation, Except.error failure)]).filterMap savedAs? =
      ended.filterMap savedAs? := by
  rw [List.filterMap_append]
  exact List.append_nil _

theorem saved_carriedOut (ended : List (Creation × Except Failure Identity)) (creation : Creation)
    (fresh : Identity) : (ended ++ [(creation, Except.ok fresh)]).filterMap savedAs? =
      ended.filterMap savedAs? ++ [(Text.trim creation.name, fresh)] := by
  rw [List.filterMap_append]
  rfl

section Step

variable {office after : Office} {action : Action}

theorem sound_start {bus : Bus} (ho : bus.isOpen = true) (errorBuffer : Nat) :
    Sound (start bus errorBuffer) where
  faithful := Directory.faithful_attach (.start bus) ho .empty errorBuffer
  announced := rfl
  distinct := List.nodup_nil
  stored := nofun
  unused _ _ := rfl
  size := rfl

theorem Sound.turn (h : office.Sound) (turn : Directory.Turn)
    (hq : (office.directory.step turn).repository = office.repository) :
    Progress office action { office with directory := office.directory.step turn } :=
  .followed _ (h.faithful.step turn) hq (h.faithful.errors_step turn)

/-- What an action does, if the identity that it hands out is new. A save is never refused. -/
theorem Sound.progress (h : office.Sound) (hf : ∀ id, action.identity? = some id →
    id ∉ office.saved.map Prod.snd) : Progress office action (office.step action) := by
  cases action with
  | begin client creation =>
    simp only [step, Creation.freeName]
    split
    · rename_i error _
      exact .refused office.underway (fun _ _ hc => hc) creation (.ofCause error)
    · rename_i hfree
      split at hfree
      · cases hfree
      · rename_i hn
        have hnone : office.index.name? (Text.trim creation.name) = none := by
          rw [index]
          simpa using hn
        exact .begun client creation hnone
  | finish client now fresh =>
    simp only [step]
    split
    · exact .followed office.directory h.faithful rfl List.prefix_rfl
    · rename_i creation hasked
      obtain ⟨error, hc⟩ | ⟨events, hevents, hc⟩ :=
        creation.carryOut_cases now (h.unused fresh (hf fresh rfl))
      · rw [repository] at hc
        simp only [hc, Directory.adopt, List.append_nil]
        refine .refused (office.underway.erase client) (fun other found hfound => ?_) creation _
        rw [Table.get?_erase] at hfound
        split at hfound
        · cases hfound
        · exact hfound
      · rw [repository] at hc
        rw [hc]
        exact .carriedOut client now fresh creation hasked events hevents
  | publish => exact h.turn .publish (Directory.repository_publish _)
  | move move => exact h.turn (.move move) (Directory.repository_move _ _)

theorem Progress.saved (h : Progress office action after) : after.saved = office.saved ∨
    ∃ name fresh, action.identity? = some fresh ∧ after.saved = office.saved ++ [(name, fresh)] := by
  cases h with
  | followed => exact .inl rfl
  | refused => exact .inl (saved_refused ..)
  | begun => exact .inl rfl
  | carriedOut => exact .inr ⟨_, _, rfl, saved_carriedOut ..⟩

/-- A creation that fails leaves the repository, the bus and the index as they were. -/
theorem Progress.failed (h : Progress office action after) {creation : Creation} {failure : Failure}
    (he : after.ended = office.ended ++ [(creation, .error failure)]) : after.directory = office.directory := by
  cases h with
  | followed => simp at he
  | refused => rfl
  | begun => simp at he
  | carriedOut => simp at he

theorem Progress.errors (h : Progress office action after) : office.errors <+: after.errors := by
  cases h with
  | followed directory _ _ told => exact told
  | refused => exact List.prefix_rfl
  | begun => exact List.prefix_rfl
  | carriedOut => exact List.prefix_rfl

/-- Carrying a creation out adds its navigation to what is saved. -/
theorem Sound.carriedOut (h : office.Sound) {now : Timestamp} {fresh : Identity} {creation : Creation}
    {underway : Table Nat Creation} {events : List Event} (hf : fresh ∉ office.saved.map Prod.snd)
    (hd : events = eventsOfCreation (Text.trim creation.name) creation.items) :
    Sound
      { directory := office.directory.adopt (office.repository.extended fresh now events)
          (office.repository.continuation fresh now events)
        underway := underway
        ended := office.ended ++ [(creation, .ok fresh)] } := by
  subst hd
  have hunused := h.unused fresh hf
  refine ⟨h.faithful.adopt rfl, ?_, ?_, ?_, ?_, ?_⟩
  all_goals simp only [Office.saved, saved_carriedOut, Office.repository, Directory.adopt]
  · have hannounced := h.announced
    rw [Office.repository, Lookup.creations, Office.saved] at hannounced
    rw [Lookup.creations, extended, List.filterMap_append, hannounced]
    exact congrArg _ (Creation.creations_continuation creation.name creation.items)
  · rw [List.map_append]
    exact List.nodup_append.mpr ⟨h.distinct, List.pairwise_singleton _ _, fun id hi other ho => by
      rintro rfl
      cases List.mem_singleton.mp ho
      exact hf hi⟩
  · refine List.forall_mem_append.mpr ⟨fun entry he => ?_, ?_⟩
    · have hne : entry.2 ≠ fresh := by
        rintro rfl
        exact hf (List.mem_map_of_mem he)
      obtain ⟨nav, hnav, hname⟩ := h.stored entry he
      refine ⟨nav, ?_, hname⟩
      rw [← hnav, Repository.fetch, Repository.fetch, stream_extended, if_neg hne]
      rfl
    · intro entry he
      cases List.mem_singleton.mp he
      exact Creation.fetch_extended creation.name creation.items hunused
  · intro id hi
    rw [List.map_append, List.mem_append, not_or] at hi
    have hne : id ≠ fresh := fun same => hi.2 (List.mem_singleton.mpr same)
    rw [extended, Table.get?_insert, if_neg hne]
    exact h.unused id hi.1
  · have hnew : office.repository.streams.contains fresh = false := by
      rw [Table.contains, hunused]
      rfl
    have hsize := h.size
    rw [Office.repository, Repository.size, Office.saved] at hsize
    rw [Office.repository] at hnew
    rw [Repository.size, extended, Table.size_insert, hnew, hsize, List.length_append]
    rfl

theorem Sound.congr (h : office.Sound) (hd : after.directory.Faithful [] .empty)
    (hr : after.repository = office.repository) (hs : after.saved = office.saved) : after.Sound := by
  refine ⟨hd, ?_, ?_, ?_, ?_, ?_⟩
  · rw [hr, hs, h.announced]
  · rw [hs]
    exact h.distinct
  · rw [hr, hs]
    exact h.stored
  · rw [hr, hs]
    exact h.unused
  · rw [hr, hs, h.size]

theorem Sound.next (h : office.Sound) (hp : Progress office action after)
    (hf : ∀ id, action.identity? = some id → id ∉ office.saved.map Prod.snd) : after.Sound := by
  cases hp with
  | followed directory faithful unchanged => exact h.congr faithful unchanged rfl
  | refused underway fewer creation failure => exact h.congr h.faithful rfl (saved_refused ..)
  | begun => exact h.congr h.faithful rfl rfl
  | carriedOut client now fresh creation asked events decided => exact h.carriedOut (hf fresh rfl) decided

end Step

section Run

variable {bus : Bus} {errorBuffer : Nat} {actions : List Action} {action : Action}

theorem run_snoc (office : Office) (actions : List Action) (action : Action) :
    office.run (actions ++ [action]) = (office.run actions).step action := List.foldl_append

theorem identities_snoc (actions : List Action) (action : Action) :
    identities (actions ++ [action]) = identities actions ++ action.identity?.toList := by
  rw [identities, List.filterMap_append]
  cases hi : action.identity? with
  | none => rw [List.filterMap_cons_none hi]; rfl
  | some fresh => rw [List.filterMap_cons_some hi]; rfl

theorem nodup_identities_snoc (hn : (identities (actions ++ [action])).Nodup) :
    (identities actions).Nodup ∧ ∀ id, action.identity? = some id → id ∉ identities actions := by
  rw [identities_snoc] at hn
  obtain ⟨hearlier, _, hapart⟩ := List.nodup_append.mp hn
  refine ⟨hearlier, fun id hi hm => ?_⟩
  rw [hi] at hapart
  exact hapart id hm id (List.mem_singleton_self id) rfl

/-- With a new identity for each creation a run is sound, and what it saved has these identities. -/
theorem sound_run (ho : bus.isOpen = true) (errorBuffer : Nat) (hn : (identities actions).Nodup) :
    ((start bus errorBuffer).run actions).Sound ∧
      ∀ id ∈ ((start bus errorBuffer).run actions).saved.map Prod.snd, id ∈ identities actions := by
  induction actions using List.reverseRecOn with
  | nil => exact ⟨sound_start ho errorBuffer, nofun⟩
  | append_singleton actions action ih =>
    obtain ⟨hearlier, hnew⟩ := nodup_identities_snoc hn
    obtain ⟨hsound, hids⟩ := ih hearlier
    have hfresh : ∀ id, action.identity? = some id →
        id ∉ ((start bus errorBuffer).run actions).saved.map Prod.snd := fun id hi hm =>
      hnew id hi (hids id hm)
    have hp := hsound.progress hfresh
    rw [run_snoc, identities_snoc]
    refine ⟨hsound.next hp hfresh, fun id hi => ?_⟩
    obtain hsame | ⟨name, fresh, hid, hmore⟩ := hp.saved
    · rw [hsame] at hi
      exact List.mem_append_left _ (hids id hi)
    · rw [hmore, List.map_append, List.mem_append] at hi
      rcases hi with hi | hi
      · exact List.mem_append_left _ (hids id hi)
      · cases List.mem_singleton.mp hi
        rw [hid]
        exact List.mem_append_right _ (List.mem_singleton_self _)

theorem progress_run (ho : bus.isOpen = true) (errorBuffer : Nat)
    (hn : (identities (actions ++ [action])).Nodup) :
    Progress ((start bus errorBuffer).run actions) action
      ((start bus errorBuffer).run (actions ++ [action])) := by
  obtain ⟨hearlier, hnew⟩ := nodup_identities_snoc hn
  obtain ⟨hsound, hids⟩ := sound_run ho errorBuffer hearlier
  rw [run_snoc]
  exact hsound.progress fun id hi hm => hnew id hi (hids id hm)

end Run

section Index

variable {office after : Office} {action : Action}

/-- No error of the index tells of a loss. -/
def Unlagged (office : Office) : Prop := office.directory.feed.Unlagged

instance (office : Office) : Decidable office.Unlagged :=
  inferInstanceAs (Decidable office.directory.feed.Unlagged)

theorem Progress.unlagged (h : Progress office action after) (hl : after.Unlagged) : office.Unlagged :=
  fun error he => hl error (h.errors.subset he)

/-- The index and its errors are those of a first part of what was saved, and of all of it once everything has
come to the index. -/
theorem Sound.index (h : office.Sound) (hl : office.Unlagged) : ∃ known more,
    office.saved = known ++ more ∧ office.index.Indexes known ∧ office.errors = Lookup.disputes known ∧
      (office.directory.Drained → more = []) := by
  obtain ⟨passed, pending, hlog, hindex, hpending⟩ := h.faithful.index hl
  obtain ⟨hindexes, hdisputes⟩ := Lookup.catchUp_empty passed
  rw [hindex] at hindexes hdisputes
  have hannounced := h.announced
  rw [Office.repository, hlog, List.nil_append, Lookup.creations, List.filterMap_append] at hannounced
  refine ⟨_, _, hannounced.symm, hindexes, hdisputes, fun hdrained => ?_⟩
  rw [hpending hdrained]
  rfl

/-- The first that was saved under a name has it in the index, and an error names it. -/
theorem Sound.first (h : office.Sound) (hl : office.Unlagged) :
    (∀ name id, office.index.name? name = some id → office.saved.lookup name = some id) ∧
      ∀ error ∈ office.errors, ∃ name first second, error = .duplicateName name first second ∧
        office.saved.lookup name = some first ∧ (name, second) ∈ office.saved ∧ first ≠ second := by
  obtain ⟨known, more, hsaved, hindexes, herrors, _⟩ := h.index hl
  rw [hsaved, herrors]
  constructor
  · intro name id hid
    rw [hindexes.first] at hid
    exact Lookup.lookup_extended hid more
  · intro error he
    obtain ⟨name, first, second, heq, hfirst, hsecond, hne⟩ := Lookup.mem_disputes he
    exact ⟨name, first, second, heq, Lookup.lookup_extended hfirst more,
      List.mem_append_left more hsecond, hne⟩

theorem Sound.drained (h : office.Sound) (hl : office.Unlagged) (hd : office.directory.Drained) :
    (∀ name, office.index.name? name = office.saved.lookup name) ∧
      office.errors = Lookup.disputes office.saved := by
  obtain ⟨known, more, hsaved, hindexes, herrors, hmore⟩ := h.index hl
  rw [hmore hd, List.append_nil] at hsaved
  rw [hsaved]
  exact ⟨hindexes.first, herrors⟩

end Index

section Paced

variable {office after : Office} {action : Action}

/-- No name was given twice, and the creations that have begun will give none twice. -/
structure Orderly (office : Office) : Prop where
  names : (office.saved.map Prod.fst).Nodup
  free : ∀ client creation, office.underway.get? client = some creation →
    Text.trim creation.name ∉ office.saved.map Prod.fst
  apart : ∀ client creation other second, office.underway.get? client = some creation →
    office.underway.get? other = some second → Text.trim creation.name = Text.trim second.name →
      client = other

/-- A name that is free when nothing of it is on its way is free for good. -/
theorem Orderly.begun (h : office.Orderly) (hs : office.Sound) (hl : office.Unlagged) {client : Nat}
    {creation : Creation} (hc : office.Clear (Text.trim creation.name))
    (hfree : office.index.name? (Text.trim creation.name) = none) :
    Orderly { office with underway := office.underway.insert client creation } := by
  obtain ⟨hdrained, hothers⟩ := hc
  -- The index knows all that was saved at this moment, so a name that it does not know was not saved.
  rw [(hs.drained hl hdrained).1] at hfree
  refine ⟨h.names, fun asker asked hasked => ?_, ?_⟩
  · rw [Table.get?_insert] at hasked
    split at hasked
    · cases hasked
      intro hmem
      have hsome := Lookup.lookup_isSome.mpr hmem
      rw [Office.saved] at hsome hfree
      rw [hfree] at hsome
      cases hsome
    · exact h.free asker asked hasked
  · intro asker asked other second hasked hsecond hsame
    rw [Table.get?_insert] at hasked hsecond
    split at hasked <;> split at hsecond
    · rename_i hasker hother
      rw [hasker, hother]
    · cases hasked
      exact absurd hsame.symm (hothers other second hsecond)
    · cases hsecond
      exact absurd hsame (hothers asker asked hasked)
    · exact h.apart asker asked other second hasked hsecond hsame

theorem Orderly.carriedOut (h : office.Orderly) {directory : Directory} {client : Nat} {fresh : Identity}
    {creation : Creation} (ha : office.underway.get? client = some creation) :
    Orderly
      { directory := directory
        underway := office.underway.erase client
        ended := office.ended ++ [(creation, .ok fresh)] } := by
  have hnew := h.free client creation ha
  have hkept : ∀ asker asked, (office.underway.erase client).get? asker = some asked →
      asker ≠ client ∧ office.underway.get? asker = some asked := by
    intro asker asked hasked
    rw [Table.get?_erase] at hasked
    split at hasked
    · cases hasked
    · exact ⟨‹_›, hasked⟩
  refine ⟨?_, fun asker asked hasked => ?_, fun asker asked other second hasked hsecond => ?_⟩
  · rw [Office.saved, saved_carriedOut, List.map_append]
    refine List.nodup_append.mpr ⟨h.names, List.pairwise_singleton _ _, fun name hname other hother => ?_⟩
    rintro rfl
    cases List.mem_singleton.mp hother
    exact hnew hname
  · obtain ⟨hne, hbefore⟩ := hkept asker asked hasked
    rw [Office.saved, saved_carriedOut, List.map_append, List.mem_append, not_or]
    refine ⟨h.free asker asked hbefore, fun hname => ?_⟩
    exact hne (h.apart asker asked client creation hbefore ha (List.mem_singleton.mp hname))
  · exact h.apart asker asked other second (hkept asker asked hasked).2 (hkept other second hsecond).2

theorem Orderly.next (h : office.Orderly) (hs : office.Sound) (hl : office.Unlagged)
    (hp : Progress office action after) (hc : ∀ client creation, action = .begin client creation →
      office.Clear (Text.trim creation.name)) : after.Orderly := by
  cases hp with
  | followed => exact ⟨h.names, h.free, h.apart⟩
  | refused underway fewer creation failure =>
    have hsaved : saved ⟨office.directory, underway, office.ended ++ [(creation, .error failure)]⟩ =
        office.saved := saved_refused ..
    refine ⟨?_, fun client found hfound => ?_, fun client found other second hfound hsecond => ?_⟩
    · rw [hsaved]
      exact h.names
    · rw [hsaved]
      exact h.free client found (fewer client found hfound)
    · exact h.apart client found other second (fewer client found hfound) (fewer other second hsecond)
  | begun client creation free => exact h.begun hs hl (hc client creation rfl) free
  | carriedOut client now fresh creation asked => exact h.carriedOut asked

theorem Paced.earlier {actions : List Action} (h : Paced office (actions ++ [action])) :
    Paced office actions ∧ ∀ client creation, action = .begin client creation →
      (office.run actions).Clear (Text.trim creation.name) := by
  constructor
  · rintro before client creation rest rfl
    refine h before client creation (rest ++ [action]) ?_
    rw [List.append_assoc, List.cons_append]
  · rintro client creation rfl
    exact h actions client creation [] rfl

theorem orderly_run {bus : Bus} (ho : bus.isOpen = true) {errorBuffer : Nat} {actions : List Action}
    (hn : (identities actions).Nodup) (hp : Paced (start bus errorBuffer) actions)
    (hl : ((start bus errorBuffer).run actions).Unlagged) : ((start bus errorBuffer).run actions).Orderly := by
  induction actions using List.reverseRecOn with
  | nil => exact ⟨List.nodup_nil, nofun, nofun⟩
  | append_singleton actions action ih =>
    have hearlier := (nodup_identities_snoc hn).1
    obtain ⟨hpaced, hclear⟩ := hp.earlier
    have hstep := progress_run ho errorBuffer hn
    have hunlagged := hstep.unlagged hl
    exact (ih hearlier hpaced hunlagged).next (sound_run ho errorBuffer hearlier).1 hunlagged hstep hclear

end Paced

/-- Of creations that race, the first that is saved under a name has it in the index, and the errors are about the
others. Where each began with nothing of its name on its way to the index, there are none. -/
theorem first_saved_keeps_name (bus : Bus) (ho : bus.isOpen = true) (errorBuffer : Nat)
    (actions : List Action) (hn : (identities actions).Nodup) :
    let office := (start bus errorBuffer).run actions
    (office.repository.size = office.saved.length ∧
      ∀ entry ∈ office.saved, ∃ nav, office.repository.fetch entry.2 = .ok nav ∧ nav.name = entry.1) ∧
    (∀ action creation failure, (identities (actions ++ [action])).Nodup →
      (office.step action).ended = office.ended ++ [(creation, .error failure)] →
        (office.step action).directory = office.directory) ∧
    (office.Unlagged →
      (∀ name id, office.index.name? name = some id → office.saved.lookup name = some id) ∧
      (∀ error ∈ office.errors, ∃ name first second, error = .duplicateName name first second ∧
        office.saved.lookup name = some first ∧ (name, second) ∈ office.saved ∧ first ≠ second) ∧
      (office.directory.Drained →
        (∀ name, office.index.name? name = office.saved.lookup name) ∧
        office.errors = Lookup.disputes office.saved ∧
        office.errors.length + (Lookup.distinctNames office.saved).length = office.saved.length) ∧
      (Paced (start bus errorBuffer) actions →
        (office.saved.map Prod.fst).Nodup ∧ office.errors = [])) := by
  intro office
  have h : office.Sound := (sound_run ho errorBuffer hn).1
  refine ⟨⟨h.size, h.stored⟩, fun action creation failure hnext hended => ?_, fun hl => ?_⟩
  · have hstep := progress_run ho errorBuffer hnext
    rw [run_snoc] at hstep
    exact hstep.failed hended
  · refine ⟨(h.first hl).1, (h.first hl).2, fun hdrained => ?_, fun hpaced => ?_⟩
    · obtain ⟨hindex, herrors⟩ := h.drained hl hdrained
      refine ⟨hindex, herrors, ?_⟩
      rw [herrors]
      exact Lookup.length_disputes h.distinct
    · have hnames := (orderly_run ho hn hpaced hl).names
      obtain ⟨known, more, hsaved, _, herrors, _⟩ := h.index hl
      refine ⟨hnames, ?_⟩
      rw [hsaved, List.map_append] at hnames
      rw [herrors, Lookup.disputes_eq_nil (List.nodup_append.mp hnames).1]

/-- Two creations find one name free before either of them is carried out. -/
def race : List Action :=
  [.begin 0 ⟨"main", []⟩, .begin 1 ⟨" main ", []⟩, .finish 1 ⟨0, 0⟩ (.ofSeed 1), .finish 0 ⟨1, 0⟩ (.ofSeed 2),
    .publish, .publish, .move .look, .move .look]

/-- The creation that was carried out first has the name, and the index reports the other. -/
theorem race_reported :
    let office := (start ⟨4, 0, [], 0, true⟩ 1).run race
    (identities race).Nodup ∧ office.Unlagged ∧ office.directory.Drained ∧
      office.index.name? "main" = some (.ofSeed 1) ∧
      office.errors = [.duplicateName "main" (.ofSeed 1) (.ofSeed 2)] ∧
      office.errors = Lookup.disputes office.saved := by
  intro office
  have hn : (identities race).Nodup := by decide
  have hl : office.Unlagged := by decide +kernel
  have hd : office.directory.Drained := by decide +kernel
  obtain ⟨_, _, hindex⟩ := first_saved_keeps_name ⟨4, 0, [], 0, true⟩ rfl 1 race hn
  obtain ⟨_, _, hdrained, _⟩ := hindex hl
  exact ⟨hn, hl, hd, by decide +kernel, by decide +kernel, (hdrained hd).2.1⟩

/-- To wait for the index is not enough: in the race nothing was stored when either creation began. -/
theorem race_unhurried :
    let origin := start ⟨4, 0, [], 0, true⟩ 1
    let office := origin.run race
    (identities race).Nodup ∧ office.Unlagged ∧ origin.Unhurried race ∧
      ¬(office.saved.map Prod.fst).Nodup ∧ office.errors ≠ [] := by
  intro origin office
  refine ⟨by decide, by decide +kernel, ?_, by decide +kernel, by decide +kernel⟩
  intro before client creation rest hrace
  match before with
  | [] => decide +kernel
  | [first] =>
    obtain ⟨rfl, _⟩ := List.cons.inj hrace
    decide +kernel
  | _ :: _ :: before =>
    have hlater : Action.begin client creation ∈ race.drop 2 := by
      rw [hrace]
      exact List.mem_append_right before List.mem_cons_self
    simp [race] at hlater

end Office

end Wayfinding
