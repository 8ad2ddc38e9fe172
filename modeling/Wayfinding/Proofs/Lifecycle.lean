import Wayfinding.Proofs.Replay
import Wayfinding.Proofs.WellFormed

namespace Wayfinding

/-- The name that an event gives, if it is a creation. -/
def Event.createdName? : Event → Option String
  | created name => some name
  | _ => none

/-- The names that a log gives, one for each creation in it. -/
def givenNames (log : List Event) : List String := log.filterMap Event.createdName?

theorem givenNames_append (first second : List Event) :
    givenNames (first ++ second) = givenNames first ++ givenNames second := List.filterMap_append

theorem givenNames_eventsOfCreation (name : String) (items : List Item) :
    givenNames (eventsOfCreation name items) = [Text.trim name] := by
  unfold eventsOfCreation
  split <;> rfl

/-- Only a creation gives a name, and it gives one to what has none. -/
theorem Decision.naming {state : Snapshot} {events : List Event} (h : Decision state events) :
    (givenNames events = [] ∧ (events.foldl Snapshot.apply state).name = state.name) ∨
      state.name = "" ∧ (events.foldl Snapshot.apply state).name ≠ "" ∧
        givenNames events = [(events.foldl Snapshot.apply state).name] := by
  cases h with
  | idle => exact .inl ⟨rfl, rfl⟩
  | creation fresh named =>
    rw [(Snapshot.foldl_creation state _ _).1]
    exact .inr ⟨fresh, named, givenNames_eventsOfCreation _ _⟩
  | addition => exact .inl ⟨rfl, rfl⟩
  | removal => exact .inl ⟨rfl, rfl⟩
  | sorting => exact .inl ⟨rfl, rfl⟩

namespace Tree

theorem item_nil (path : String) : item [] path = .error (.itemNotFound path) := by
  have hnone : ∀ ids, descend? ids [] = none := by
    intro ids
    cases ids with
    | nil => rfl
    | cons id rest => cases rest <;> rfl
  cases hs : Path.segments? path <;> simp [item, hs, hnone]

theorem level_nil {path : String} {level : Tree} (h : Tree.level [] path = .ok level) :
    path = "" ∧ level = [] := by
  unfold Tree.level at h
  split at h
  · rename_i hp
    cases h
    exact ⟨hp, rfl⟩
  · rw [item_nil] at h
    cases h

end Tree

/-- In a blank state there is nothing to remove or to reorder, and only the root level to add to. -/
theorem Decision.of_blank {id : Identity} {events : List Event} (h : Decision (.blank id) events) :
    events = [] ∨ (∃ name rest, name ≠ "" ∧ events = .created name :: rest) ∨
      ∃ items, items ≠ [] ∧ events = [.itemsAdded items 0 ""] := by
  cases h with
  | idle => exact .inl rfl
  | creation _ named => exact .inr (.inl ⟨_, _, named, rfl⟩)
  | @addition path level items index found some _ _ inside =>
    obtain ⟨rfl, rfl⟩ := Tree.level_nil found
    obtain rfl : index = 0 := Nat.le_zero.mp inside
    refine .inr (.inr ⟨_, ?_, rfl⟩)
    rw [Tree.setInitial_eq_map]
    simpa using some
  | @removal paths some loose =>
    obtain ⟨path, rest, rfl⟩ := List.exists_cons_of_ne_nil some
    obtain ⟨item, hi, _⟩ := loose path List.mem_cons_self
    rw [show (Snapshot.blank id).tree = [] from rfl, Tree.item_nil] at hi
    cases hi
  | sorting found moves =>
    obtain ⟨_, rfl⟩ := Tree.level_nil found
    exact absurd rfl (Tree.ne_nil_of_wouldReorder moves)

namespace Navigation

/-- The log gives no name before the creation and one in all after it, which is the name. -/
def Named (nav : Navigation) : Prop :=
  givenNames nav.uncommitted = if nav.isCreated then [nav.name] else []

theorem isCreated_iff {nav : Navigation} : nav.isCreated = true ↔ nav.name ≠ "" := decide_eq_true_iff

theorem named_new (id : Identity) : (new id).Named := rfl

theorem Named.attempt {nav : Navigation} (h : nav.Named) (intent : Intent) : (nav.attempt intent).Named := by
  obtain ⟨events, hdecided, hafter⟩ := attempt_decided nav intent
  unfold Named at h ⊢
  rw [hafter, recordAll_uncommitted, givenNames_append, h, Snapshot.isCreated, Snapshot.isCreated,
    recordAll_toSnapshot]
  rcases hdecided.naming with ⟨hnone, hname⟩ | ⟨hfresh, hnamed, hgiven⟩
  · simp [hnone, hname]
  · simp [hfresh, hnamed, hgiven]

theorem Named.attemptAll {nav : Navigation} (h : nav.Named) (intents : List Intent) :
    (nav.attemptAll intents).Named := by
  induction intents generalizing nav with
  | nil => exact h
  | cons intent rest ih => exact ih (h.attempt intent)

theorem name_attempt {nav : Navigation} (h : nav.name ≠ "") (intent : Intent) :
    (nav.attempt intent).name = nav.name := by
  obtain ⟨events, hdecided, hafter⟩ := attempt_decided nav intent
  rw [hafter, recordAll_toSnapshot]
  rcases hdecided.naming with ⟨_, hname⟩ | ⟨hfresh, _⟩
  · exact hname
  · exact absurd hfresh h

theorem name_attemptAll {nav : Navigation} (h : nav.name ≠ "") (intents : List Intent) :
    (nav.attemptAll intents).name = nav.name := by
  induction intents generalizing nav with
  | nil => rfl
  | cons intent rest ih =>
    have hstep := name_attempt h intent
    have hrest := ih (hstep ▸ h)
    exact hrest.trans hstep

theorem name_insertAt {nav after : Navigation} {path : String} {index : Int} {items : List Item}
    (h : nav.insertAt path index items = .ok after) : after.name = nav.name := by
  simp only [insertAt, refusal_ok, bind_ok] at h
  obtain ⟨_, level, _, h⟩ := h
  split at h
  · cases h
    rfl
  · simp only [bind_ok] at h
    obtain ⟨_, _, _, _, h⟩ := h
    cases h
    rfl

theorem name_remove {nav after : Navigation} {paths : List String} (h : nav.remove paths = .ok after) :
    after.name = nav.name := by
  simp only [remove, bind_ok] at h
  obtain ⟨found, _, h⟩ := h
  split at h <;> cases h <;> rfl

theorem name_sortAt {nav after : Navigation} {path : String} {order : List String}
    (h : nav.sortAt path order = .ok after) : after.name = nav.name := by
  simp only [sortAt, bind_ok] at h
  obtain ⟨level, _, h⟩ := h
  split at h <;> cases h <;> rfl

theorem creation_of_name_ne {nav after : Navigation} {intent : Intent}
    (h : nav.perform intent = .ok after) (hn : after.name ≠ nav.name) :
    ∃ name items, intent = .create name items := by
  have hinsert : ∀ path index items, nav.insertAt path index items ≠ .ok after :=
    fun _ _ _ hi => hn (name_insertAt hi)
  have hsort : ∀ path order, nav.sortAt path order ≠ .ok after := fun _ _ hs => hn (name_sortAt hs)
  have happend : ∀ path items, nav.appendAt path items ≠ .ok after := by
    intro path items ha
    simp only [appendAt, bind_ok] at ha
    obtain ⟨level, _, ha⟩ := ha
    exact hinsert path level.length items ha
  cases intent with
  | create name items => exact ⟨name, items, rfl⟩
  | insert index items => exact absurd h (hinsert _ _ _)
  | insertAt path index items => exact absurd h (hinsert _ _ _)
  | prepend items => exact absurd h (hinsert "" 0 items)
  | prependAt path items => exact absurd h (hinsert path 0 items)
  | append items => exact absurd h (happend _ _)
  | appendAt path items => exact absurd h (happend _ _)
  | remove paths => exact absurd (name_remove h) hn
  | sort order => exact absurd h (hsort _ _)
  | sortAt path order => exact absurd h (hsort _ _)

/-- The intent is a creation that is accepted, and this is the name that it gives. -/
def Creates (nav : Navigation) (name : String) (intent : Intent) : Prop :=
  ∃ given items created, intent = .create given items ∧ nav.perform intent = .ok created ∧
    name = Text.trim given

/-- Creation is what makes a name out of none. -/
theorem creates_iff {nav : Navigation} (h : nav.name = "") {name : String} {intent : Intent} :
    nav.Creates name intent ↔ name ≠ "" ∧ (nav.attempt intent).name = name := by
  constructor
  · rintro ⟨given, items, created, rfl, hc, rfl⟩
    obtain ⟨_, hnamed, _, _, hafter⟩ := create_eq_ok.mp hc
    have hname := (Snapshot.foldl_creation nav.toSnapshot given items).1
    rw [← recordAll_toSnapshot, ← hafter] at hname
    exact ⟨hnamed, by simpa [attempt, hc, Except.toOption] using hname⟩
  · rintro ⟨hne, hname⟩
    cases hp : nav.perform intent with
    | error error =>
      simp only [attempt, hp, Except.toOption, Option.getD_none] at hname
      exact absurd (hname.symm.trans h) hne
    | ok created =>
      simp only [attempt, hp, Except.toOption, Option.getD_some] at hname
      obtain ⟨given, items, rfl⟩ := creation_of_name_ne hp (by rw [hname, h]; exact hne)
      obtain ⟨_, _, _, _, hafter⟩ := create_eq_ok.mp hp
      have hgiven := (Snapshot.foldl_creation nav.toSnapshot given items).1
      rw [← recordAll_toSnapshot, ← hafter, hname] at hgiven
      exact ⟨given, items, created, rfl, hp, hgiven⟩

/-- Of the intents, tried in their order, one creates the navigation under this name. -/
def CreatedAs (name : String) : Navigation → List Intent → Prop
  | _, [] => False
  | nav, intent :: rest => nav.Creates name intent ∨ CreatedAs name (nav.attempt intent) rest

theorem not_createdAs {nav : Navigation} (h : nav.name ≠ "") (name : String) (intents : List Intent) :
    ¬CreatedAs name nav intents := by
  induction intents generalizing nav with
  | nil => exact id
  | cons intent rest ih =>
    rintro (⟨given, items, created, rfl, hc, _⟩ | hrest)
    · exact h (create_eq_ok.mp hc).1
    · exact ih ((name_attempt h intent).symm ▸ h) hrest

theorem createdAs_iff {nav : Navigation} (h : nav.name = "") (name : String) (intents : List Intent) :
    CreatedAs name nav intents ↔ name ≠ "" ∧ (nav.attemptAll intents).name = name := by
  induction intents generalizing nav with
  | nil =>
    simp only [CreatedAs, attemptAll, List.foldl_nil, h, false_iff, not_and]
    exact fun hne he => hne he.symm
  | cons intent rest ih =>
    rw [CreatedAs, attemptAll_cons, creates_iff h]
    by_cases hafter : (nav.attempt intent).name = ""
    · rw [ih hafter, hafter]
      refine or_iff_right ?_
      rintro ⟨hne, he⟩
      exact hne he.symm
    · rw [name_attemptAll hafter]
      exact or_iff_left (not_createdAs hafter name rest)

/-- A life in its documented order: the log begins with the creation, and before it there is only the
identity. -/
structure Orderly (nav : Navigation) : Prop where
  log : nav.uncommitted = [] ∨ ∃ name rest, nav.uncommitted = .created name :: rest
  blank : nav.isCreated = false → nav = new nav.id

theorem uncommitted_attemptAll (nav : Navigation) (intents : List Intent) :
    ∃ more, (nav.attemptAll intents).uncommitted = nav.uncommitted ++ more := by
  obtain ⟨events, he⟩ := attemptAll_recorded nav intents
  exact ⟨events, by rw [he, recordAll_uncommitted]⟩

/-- Items are inserted before the creation: whatever was tried before them did nothing. -/
def InsertsFirst (id : Identity) (intents : List Intent) (items : List Item) : Prop :=
  ∃ before intent after, intents = before ++ intent :: after ∧ (new id).attemptAll before = new id ∧
    ((new id).attempt intent).uncommitted = [.itemsAdded items 0 ""]

theorem InsertsFirst.opens {id : Identity} {intents : List Intent} {items : List Item}
    (h : InsertsFirst id intents items) :
    ∃ rest, ((new id).attemptAll intents).uncommitted = .itemsAdded items 0 "" :: rest := by
  obtain ⟨before, intent, after, rfl, hidle, hfirst⟩ := h
  obtain ⟨more, hmore⟩ := uncommitted_attemptAll ((new id).attempt intent) after
  refine ⟨more, ?_⟩
  rw [attemptAll_append, hidle, attemptAll_cons, hmore, hfirst]
  rfl

/-- A run on a new navigation does nothing, or begins with the creation, or with an insertion. -/
theorem attemptAll_new (id : Identity) (intents : List Intent) :
    (new id).attemptAll intents = new id ∨
      (((new id).attemptAll intents).isCreated = true ∧
        ∃ name rest, ((new id).attemptAll intents).uncommitted = .created name :: rest) ∨
      ∃ items, items ≠ [] ∧ InsertsFirst id intents items := by
  induction intents with
  | nil => exact .inl rfl
  | cons intent rest ih =>
    obtain ⟨events, hdecided, hafter⟩ := attempt_decided (new id) intent
    have hfirst : ((new id).attempt intent).uncommitted = events := by
      rw [hafter, recordAll_uncommitted]
      rfl
    rcases hdecided.of_blank with rfl | ⟨name, others, hname, rfl⟩ | ⟨items, hsome, rfl⟩
    · have hidle : (new id).attempt intent = new id := hafter
      rw [attemptAll_cons, hidle]
      refine ih.imp_right (.imp_right ?_)
      rintro ⟨items, hsome, before, first, after, rfl, hbefore, hopens⟩
      refine ⟨items, hsome, intent :: before, first, after, rfl, ?_, hopens⟩
      rw [attemptAll_cons, hidle]
      exact hbefore
    · right; left
      obtain ⟨more, hmore⟩ := uncommitted_attemptAll ((new id).attempt intent) rest
      rw [hfirst] at hmore
      rw [← attemptAll_cons] at hmore
      have hnamed : ((new id).attemptAll (intent :: rest)).Named := (named_new id).attemptAll _
      refine ⟨?_, name, others ++ more, hmore⟩
      unfold Named at hnamed
      rw [hmore] at hnamed
      split at hnamed
      · assumption
      · cases hnamed
    · exact .inr (.inr ⟨items, hsome, [], intent, rest, rfl, rfl, hfirst⟩)

/-- The documented order is kept where nothing is inserted before the creation, and nowhere else. -/
theorem orderly_iff (id : Identity) (intents : List Intent) :
    ((new id).attemptAll intents).Orderly ↔ ∀ items, items ≠ [] → ¬InsertsFirst id intents items := by
  constructor
  · rintro ⟨hlog | ⟨name, rest, hlog⟩, _⟩ items _ hi
    all_goals
      obtain ⟨more, hmore⟩ := hi.opens
      rw [hlog] at hmore
      cases hmore
  · intro hnone
    rcases attemptAll_new id intents with hidle | ⟨hcreated, hlog⟩ | ⟨items, hsome, hi⟩
    · rw [hidle]
      exact ⟨.inl rfl, fun _ => rfl⟩
    · refine ⟨.inr hlog, fun hnot => ?_⟩
      rw [hcreated] at hnot
      cases hnot
    · exact absurd hi (hnone items hsome)

theorem perform_create_again {nav : Navigation} (h : nav.name ≠ "") (name : String) (items : List Item) :
    nav.perform (.create name items) = .error (.alreadyCreated nav.id) := by
  have hcreated : nav.isCreated = true := isCreated_iff.mpr h
  simp [perform, create, hcreated, throw, throwThe, MonadExceptOf.throw, bind, Except.bind]

/-- A log gives one name, that of its only creation, if the navigation is created and none before that. It begins
with the creation, or with what was inserted before it. -/
theorem lifecycle (id : Identity) (intents : List Intent) :
    let nav := (new id).attemptAll intents
    givenNames nav.uncommitted = (if nav.isCreated then [nav.name] else []) ∧
      (∀ name, CreatedAs name (new id) intents ↔ name ≠ "" ∧ nav.name = name) ∧
      (nav.isCreated = true → ∀ later, (nav.attemptAll later).name = nav.name ∧
        ∀ name items, (nav.attemptAll later).perform (.create name items) =
          .error (.alreadyCreated (nav.attemptAll later).id)) ∧
      (∀ name items created, nav.perform (.create name items) = .ok created →
        created.name = Text.trim name ∧ created.tree = Tree.setInitial items true ∧
          created.uncommitted = nav.uncommitted ++ eventsOfCreation name items) ∧
      (nav.Orderly ↔ ∀ items, items ≠ [] → ¬InsertsFirst id intents items) ∧
      ∀ items, InsertsFirst id intents items → ∃ rest, nav.uncommitted = .itemsAdded items 0 "" :: rest := by
  intro nav
  refine ⟨(named_new id).attemptAll intents, fun name => createdAs_iff rfl name intents, ?_, ?_,
    orderly_iff id intents, fun items hi => hi.opens⟩
  · intro hcreated later
    have hnamed := isCreated_iff.mp hcreated
    have hname := name_attemptAll hnamed later
    exact ⟨hname, perform_create_again (hname.symm ▸ hnamed)⟩
  · intro name items created hc
    obtain ⟨_, _, _, _, hafter⟩ := create_eq_ok.mp hc
    obtain ⟨hname, htree⟩ := Snapshot.foldl_creation nav.toSnapshot name items
    rw [← recordAll_toSnapshot, ← hafter] at hname htree
    refine ⟨hname, htree, ?_⟩
    rw [hafter, recordAll_uncommitted]

/-- An item enters a navigation that is not created, and is gone when it is created. -/
theorem early_insertion_lost :
    let item := Item.new "foo" .label
    let nav := new (.ofSeed 1)
    ∃ filled created, nav.perform (.append [item]) = .ok filled ∧ filled.isCreated = false ∧
      filled.version = 1 ∧ filled.tree = [item] ∧ filled.perform (.create "main" []) = .ok created ∧
      created.tree = [] ∧ created.uncommitted = [.itemsAdded [item] 0 "", .created "main"] ∧
      ¬filled.Orderly ∧ ¬created.Orderly := by
  intro item nav
  refine ⟨_, _, rfl, rfl, rfl, rfl, rfl, rfl, rfl, ?_, ?_⟩
  · rintro ⟨hlog | ⟨_, _, hlog⟩, _⟩ <;> cases hlog
  · rintro ⟨hlog | ⟨_, _, hlog⟩, _⟩ <;> cases hlog

end Navigation

end Wayfinding
