import Mathlib.Data.List.Induction
import Wayfinding.Proofs.Accounting
import Wayfinding.Proofs.Projection
import Wayfinding.Proofs.Publication

namespace Wayfinding

namespace Fate

def isLost : Fate → Bool
  | lost _ => true
  | _ => false

theorem isLost_ofEnvelope (filter : EventFilter) (envelope : Envelope) :
    (ofEnvelope filter envelope).isLost = false := by
  unfold ofEnvelope
  split <;> rfl

/-- Where nothing was lost, every envelope met its own fate. -/
theorem Account.eq_map {filter : EventFilter} {fates : List Fate} {envelopes : List Envelope}
    (h : Account filter fates envelopes) (hk : ∀ fate ∈ fates, fate.isLost = false) :
    fates = envelopes.map (ofEnvelope filter) := by
  induction h with
  | nil => rfl
  | snoc _ covers ih =>
    obtain ⟨hearlier, hlast⟩ := List.forall_mem_append.mp hk
    rw [List.map_append, ← ih hearlier]
    congr 1
    cases covers with
    | handled envelope accepted => rw [List.map_singleton, ofEnvelope_accepted accepted]
    | refused envelope refused => rw [List.map_singleton, ofEnvelope_refused refused]
    | lost first => cases hlast _ (List.mem_singleton_self _)

end Fate

def ProjectionError.isLag : ProjectionError → Bool
  | lagged _ _ => true
  | _ => false

namespace Feed

/-- Only who publishes on the bus does this. -/
def Move.publishes : Move → Bool
  | publish _ => true
  | close => true
  | _ => false

/-- The errors that came about, the oldest first, whether they were read or not. -/
def errors {σ : Type} (feed : Feed σ) : List ProjectionError := feed.read ++ feed.unread

/-- No error tells of a loss. -/
def Unlagged {σ : Type} (feed : Feed σ) : Prop := ∀ error ∈ feed.errors, error.isLag = false

instance {σ : Type} (feed : Feed σ) : Decidable feed.Unlagged :=
  inferInstanceAs (Decidable (∀ error ∈ feed.errors, error.isLag = false))

section Fates

variable {σ : Type} {handle : σ → Envelope → σ × Option ProjectionError} {component : String}
  {filter : EventFilter} {initial : σ} {fates : List Fate} {feed : Feed σ}

theorem meetAll_append (handle : σ → Envelope → σ × Option ProjectionError) (component : String)
    (initial : σ) (fates more : List Fate) :
    meetAll handle component initial (fates ++ more) =
      ((meetAll handle component (meetAll handle component initial fates).1 more).1,
        (meetAll handle component initial fates).2 ++
          (meetAll handle component (meetAll handle component initial fates).1 more).2) := by
  induction more using List.reverseRecOn with
  | nil => simp [meetAll]
  | append_singleton more fate ih =>
    rw [← List.append_assoc, meetAll_snoc, meetAll_snoc, ih, List.append_assoc]

/-- A loss that was met is an error that came about. -/
theorem lag_of_lost {count : Nat} (h : .lost count ∈ fates) :
    .lagged component count ∈ (meetAll handle component initial fates).2 := by
  obtain ⟨before, after, rfl⟩ := List.append_of_mem h
  rw [← List.singleton_append, meetAll_append, meetAll_append]
  exact List.mem_append_right _ (List.mem_append_left _ List.mem_cons_self)

theorem Explained.unlost (h : Explained handle component filter initial fates feed) (hl : feed.Unlagged) :
    ∀ fate ∈ fates, fate.isLost = false := by
  intro fate hf
  cases fate with
  | handled => rfl
  | refused => rfl
  | lost count =>
    have hlag : .lagged component count ∈ (meetAll handle component initial fates).2 := lag_of_lost hf
    rw [h.met] at hlag
    cases hl _ hlag

theorem Explained.errors_prefix {later : Feed σ} {more : List Fate}
    (h : Explained handle component filter initial fates feed)
    (hm : Explained handle component filter initial (fates ++ more) later) : feed.errors <+: later.errors := by
  have hlater := congrArg Prod.snd hm.met
  rw [meetAll_append, h.met] at hlater
  exact ⟨_, hlater⟩

/-- Of what was published, a first part went through the handler, each envelope by itself. -/
theorem Explained.unlagged (h : Explained handle component filter initial fates feed) (hl : feed.Unlagged) :
    ∃ passed pending, feed.published = passed ++ pending ∧
      meetAll handle component initial (passed.map (Fate.ofEnvelope filter)) = (feed.state, feed.errors) ∧
      (feed.due = [] → pending = []) := by
  obtain ⟨passed, pending, hpublished, haccount, howes⟩ := h.account
  refine ⟨passed, pending, hpublished, ?_, Bus.pending_of_due_nil howes⟩
  rw [← haccount.eq_map (h.unlost hl)]
  exact h.met

/-- A follower that the bus has waited for meets all that was published, and a reader gets all its errors. -/
theorem Explained.flushed (h : Explained handle component filter initial fates feed) (hl : feed.Unlagged)
    (hk : feed.bus.dropped ≤ feed.follower.subscription.next) :
    ∃ count, (feed.run handle (Feed.rounds count)).due = [] ∧
      meetAll handle component initial (feed.published.map (Fate.ofEnvelope filter)) =
        ((feed.run handle (Feed.rounds count)).state, (feed.run handle (Feed.rounds count)).read) := by
  obtain ⟨more, hmore, hdue, hcost, hpublished⟩ := h.rounds feed.cost
  obtain ⟨hnone, haccount, hmet⟩ := hmore.settled (by omega)
  rw [hnone, List.append_nil] at hdue
  rw [hpublished] at haccount
  -- The bus has kept all that is due, so nothing is lost on the way to the end either.
  have hunlost : ∀ fate ∈ fates ++ more, fate.isLost = false := by
    refine List.forall_mem_append.mpr ⟨h.unlost hl, fun fate hf => ?_⟩
    rw [hdue, due, Bus.due, Nat.sub_eq_zero_of_le hk] at hf
    obtain ⟨envelope, _, rfl⟩ := List.mem_map.mp hf
    exact Fate.isLost_ofEnvelope _ envelope
  rw [haccount.eq_map hunlost] at hmet
  exact ⟨feed.cost, hnone, hmet⟩

theorem publishes_rounds {count : Nat} {move : Move} (h : move ∈ rounds count) : move.publishes = false := by
  obtain ⟨pair, hpair, hmove⟩ := List.mem_flatten.mp h
  rw [List.eq_of_mem_replicate hpair] at hmove
  rcases List.mem_pair.mp hmove with rfl | rfl <;> rfl

theorem publishes_perform (feed : Feed σ) (handle : σ → Envelope → σ × Option ProjectionError) {move : Move}
    (hm : move.publishes = false) :
    (feed.perform handle move).published = feed.published ∧
      (feed.perform handle move).bus.isOpen = feed.bus.isOpen := by
  cases move with
  | publish => cases hm
  | close => cases hm
  | join => exact ⟨rfl, rfl⟩
  | leave =>
    simp only [perform]
    split <;> exact ⟨rfl, rfl⟩
  | look =>
    simp only [perform]
    split <;> exact ⟨rfl, rfl⟩
  | step =>
    simp only [perform]
    split <;> exact ⟨rfl, rfl⟩
  | read => exact ⟨rfl, rfl⟩

end Fates

/-- The name index meets what it passes as it would take it from a log. -/
theorem meetAll_project (component : String) (lookup : Lookup) (envelopes : List Envelope) :
    meetAll Lookup.project component lookup (envelopes.map (Fate.ofEnvelope Lookup.filter)) =
      lookup.catchUp envelopes := by
  induction envelopes generalizing lookup with
  | nil => rfl
  | cons envelope rest ih =>
    rw [List.map_cons, ← List.singleton_append, meetAll_append, ih, Lookup.catchUp]
    cases ha : Lookup.filter.accepts envelope with
    | true =>
      rw [Fate.ofEnvelope_accepted ha]
      rfl
    | false =>
      rw [Fate.ofEnvelope_refused ha]
      rfl

end Feed

namespace Publisher

theorem repository_run (bus : Bus) (history : List (Timestamp × Repository.Operation)) :
    (run bus history).repository = Repository.reached history := by
  have hstep : ∀ publisher : Publisher, (history.foldl call publisher).repository = history.foldl
      (fun repository entry => (repository.perform entry.1 entry.2).repository) publisher.repository := by
    intro publisher
    induction history generalizing publisher with
    | nil => rfl
    | cons entry rest ih => rw [List.foldl_cons, ih, repository_call, List.foldl_cons]
  exact hstep (start bus)

theorem isOpen_publishAll (bus : Bus) (envelopes : List Envelope) :
    (bus.publishAll envelopes).isOpen = bus.isOpen := by
  induction envelopes generalizing bus with
  | nil => rfl
  | cons envelope rest ih => exact (ih (bus.publish envelope).2).trans (Bus.isOpen_publish bus envelope)

theorem isOpen_run {bus : Bus} (ho : bus.isOpen = true) (history : List (Timestamp × Repository.Operation)) :
    (run bus history).bus.isOpen = true := by
  have h : Agrees bus (run bus history) := (agrees_start bus).foldl history
  rw [h.bus, isOpen_publishAll, ho]

end Publisher

/-- A repository, and a name index that follows it. -/
structure Directory where
  repository : Repository
  /-- What is stored and not published yet, the oldest first. -/
  outbox : List Envelope
  feed : Feed Lookup

namespace Directory

open Repository

inductive Turn where
  | call (now : Timestamp) (operation : Operation)
  /-- Publishes the oldest envelope that is still to be published. -/
  | publish
  /-- The index and its readers go on. -/
  | move (move : Feed.Move)

def Turn.call? : Turn → Option (Timestamp × Operation)
  | call now operation => some (now, operation)
  | _ => none

def calls (turns : List Turn) : List (Timestamp × Operation) := turns.filterMap Turn.call?

/-- Takes over what a call has stored; it is to be published after what waits already. -/
def adopt (directory : Directory) (repository : Repository) (appended : List Envelope) : Directory :=
  { directory with repository := repository, outbox := directory.outbox ++ appended }

/-- One turn. Nobody but the repository publishes on its bus. -/
def step (directory : Directory) : Turn → Directory
  | .call now operation =>
    let effect := directory.repository.perform now operation
    directory.adopt effect.repository effect.appended
  | .publish =>
    match directory.outbox with
    | [] => directory
    | envelope :: rest =>
      { directory with outbox := rest, feed := directory.feed.perform Lookup.project (.publish envelope) }
  | .move move =>
    if move.publishes then directory
    else { directory with feed := directory.feed.perform Lookup.project move }

def run (directory : Directory) (turns : List Turn) : Directory := turns.foldl step directory

/-- A name index begins to follow a publisher, with what it has from the log until then. -/
def attach (publisher : Publisher) (caughtUp : Lookup) (errorBuffer : Nat) : Directory where
  repository := publisher.repository
  outbox := []
  feed := .start publisher.bus Lookup.component Lookup.filter errorBuffer caughtUp

/-- Everything that was stored has come to the index. -/
def Drained (directory : Directory) : Prop := directory.outbox = [] ∧ directory.feed.due = []

instance (directory : Directory) : Decidable directory.Drained :=
  inferInstanceAs (Decidable (directory.outbox = [] ∧ directory.feed.due = []))

theorem repository_publish (directory : Directory) :
    (directory.step .publish).repository = directory.repository := by
  simp only [step]
  split <;> rfl

theorem repository_move (directory : Directory) (move : Feed.Move) :
    (directory.step (.move move)).repository = directory.repository := by
  simp only [step]
  split <;> rfl

theorem repository_run (directory : Directory) (turns : List Turn) :
    (directory.run turns).repository = (calls turns).foldl
      (fun repository entry => (repository.perform entry.1 entry.2).repository) directory.repository := by
  induction turns generalizing directory with
  | nil => rfl
  | cons turn rest ih =>
    have hrun : directory.run (turn :: rest) = (directory.step turn).run rest := rfl
    rw [hrun, ih]
    cases turn with
    | call => rfl
    | publish => rw [repository_publish, calls, calls, List.filterMap_cons_none rfl]
    | move move => rw [repository_move, calls, calls, List.filterMap_cons_none rfl]

/-- The log is what was published since the index follows, behind what was there before and in front of what is
still to be published. -/
structure Faithful (base : List Envelope) (initial : Lookup) (directory : Directory) : Prop where
  log : directory.repository.log = base ++ directory.feed.published ++ directory.outbox
  isOpen : directory.feed.bus.isOpen = true
  explained : ∃ fates,
    Feed.Explained Lookup.project Lookup.component Lookup.filter initial fates directory.feed

section Faithful

variable {base : List Envelope} {initial : Lookup} {directory : Directory}

theorem faithful_attach (publisher : Publisher) (ho : publisher.bus.isOpen = true) (caughtUp : Lookup)
    (errorBuffer : Nat) :
    Faithful publisher.repository.log caughtUp (attach publisher caughtUp errorBuffer) where
  log := by simp [attach, Feed.start]
  isOpen := ho
  explained := ⟨[], Feed.explained_start ..⟩

theorem Faithful.adopt (h : Faithful base initial directory) {repository : Repository}
    {appended : List Envelope} (hl : repository.log = directory.repository.log ++ appended) :
    Faithful base initial (directory.adopt repository appended) := by
  refine ⟨?_, h.isOpen, h.explained⟩
  simp only [Directory.adopt]
  rw [hl, h.log, List.append_assoc]

theorem Faithful.publish (h : Faithful base initial directory) :
    Faithful base initial (directory.step .publish) := by
  obtain ⟨fates, hfates⟩ := h.explained
  simp only [Directory.step]
  cases ho : directory.outbox with
  | nil => exact h
  | cons envelope rest =>
    have hlog := h.log
    rw [ho, ← List.singleton_append] at hlog
    refine ⟨?_, ?_, fates, hfates.publish envelope⟩
    · rw [hlog]
      simp [Feed.perform, h.isOpen]
    · simp only [Feed.perform, h.isOpen, if_true]
      exact (Bus.isOpen_publish _ _).trans h.isOpen

theorem Faithful.move (h : Faithful base initial directory) (move : Feed.Move) :
    Faithful base initial (directory.step (.move move)) := by
  obtain ⟨fates, hfates⟩ := h.explained
  simp only [Directory.step]
  split
  · exact h
  · rename_i hquiet
    obtain ⟨hpublished, hopen⟩ := Feed.publishes_perform directory.feed Lookup.project
      (Bool.eq_false_iff.mpr hquiet)
    obtain ⟨more, hmore, _⟩ := hfates.perform move
    refine ⟨?_, hopen.trans h.isOpen, fates ++ more, hmore⟩
    simp only [hpublished]
    exact h.log

theorem Faithful.step (h : Faithful base initial directory) (turn : Turn) :
    Faithful base initial (directory.step turn) := by
  cases turn with
  | call now operation => exact h.adopt (directory.repository.change_perform now operation).log
  | publish => exact h.publish
  | move move => exact h.move move

theorem Faithful.errors_step (h : Faithful base initial directory) (turn : Turn) :
    directory.feed.errors <+: (directory.step turn).feed.errors := by
  obtain ⟨fates, hfates⟩ := h.explained
  have hperform : ∀ move, directory.feed.errors <+: (directory.feed.perform Lookup.project move).errors := by
    intro move
    obtain ⟨more, hmore, _⟩ := hfates.perform move
    exact hfates.errors_prefix hmore
  cases turn with
  | call => exact List.prefix_rfl
  | publish =>
    simp only [Directory.step]
    split
    · exact List.prefix_rfl
    · exact hperform _
  | move move =>
    simp only [Directory.step]
    split
    · exact List.prefix_rfl
    · exact hperform move

theorem Faithful.run (h : Faithful base initial directory) (turns : List Turn) :
    Faithful base initial (directory.run turns) := by
  induction turns generalizing directory with
  | nil => exact h
  | cons turn rest ih => exact ih (h.step turn)

/-- What the index knows is what it would know from a first part of the log. -/
theorem Faithful.index (h : Faithful base initial directory) (hl : directory.feed.Unlagged) :
    ∃ passed pending, directory.repository.log = base ++ passed ++ pending ∧
      initial.catchUp passed = (directory.feed.state, directory.feed.errors) ∧
      (directory.Drained → pending = []) := by
  obtain ⟨fates, hfates⟩ := h.explained
  obtain ⟨passed, pending, hpublished, hmet, hdue⟩ := hfates.unlagged hl
  rw [Feed.meetAll_project] at hmet
  refine ⟨passed, pending ++ directory.outbox, ?_, hmet, ?_⟩
  · rw [h.log, hpublished]
    simp only [List.append_assoc]
  · rintro ⟨houtbox, hnone⟩
    rw [hdue hnone, houtbox]
    rfl

end Faithful

/-- Rounds in which the index takes one look and one error is read. -/
def rounds (count : Nat) : List Turn := (Feed.rounds count).map .move

theorem run_moves (directory : Directory) {moves : List Feed.Move}
    (h : ∀ move ∈ moves, move.publishes = false) : directory.run (moves.map .move) =
      { directory with feed := directory.feed.run Lookup.project moves } := by
  induction moves generalizing directory with
  | nil => rfl
  | cons move rest ih =>
    obtain ⟨hfirst, hrest⟩ := List.forall_mem_cons.mp h
    have hstep : directory.step (.move move) =
        { directory with feed := directory.feed.perform Lookup.project move } := by
      simp [step, hfirst]
    have hrun : directory.run ((move :: rest).map .move) =
        (directory.step (.move move)).run (rest.map .move) := rfl
    rw [hrun, hstep, ih _ hrest]
    rfl

/-- Wherever a history of calls is cut, an index that catches up there and then follows the bus knows the same names
and has met the same errors as one that catches up on the whole log. -/
theorem late_index_agrees (bus : Bus) (ho : bus.isOpen = true) (before : List (Timestamp × Operation))
    (errorBuffer : Nat) (turns : List Turn) :
    let origin := Publisher.run bus before
    let caughtUp := Lookup.empty.catchUp origin.repository.log
    let directory := (attach origin caughtUp.1 errorBuffer).run turns
    let whole := Lookup.empty.catchUp (reached (before ++ calls turns)).log
    directory.feed.Unlagged →
      (directory.Drained →
        directory.feed.state = whole.1 ∧ caughtUp.2 ++ directory.feed.errors = whole.2) ∧
      (directory.outbox = [] → directory.feed.bus.dropped ≤ directory.feed.follower.subscription.next →
        ∃ count,
          let done := directory.run (rounds count)
          done.Drained ∧ done.feed.state = whole.1 ∧ caughtUp.2 ++ done.feed.read = whole.2) := by
  intro origin caughtUp directory whole hl
  have hopen : origin.bus.isOpen = true := Publisher.isOpen_run ho before
  have hrepository : directory.repository = reached (before ++ calls turns) := by
    rw [repository_run, reached, List.foldl_append, ← reached, ← Publisher.repository_run bus]
    rfl
  have h : Faithful origin.repository.log caughtUp.1 directory :=
    (faithful_attach origin hopen caughtUp.1 errorBuffer).run turns
  have hwhole : ∀ after, directory.repository.log = origin.repository.log ++ after →
      whole = ((caughtUp.1.catchUp after).1, caughtUp.2 ++ (caughtUp.1.catchUp after).2) := by
    intro after hafter
    rw [← Lookup.catchUp_append, ← hafter, hrepository]
  constructor
  · intro hdrained
    obtain ⟨passed, pending, hlog, hindex, hpending⟩ := h.index hl
    rw [hpending hdrained, List.append_nil] at hlog
    rw [hwhole passed hlog, hindex]
    exact ⟨rfl, rfl⟩
  · intro houtbox hk
    obtain ⟨fates, hfates⟩ := h.explained
    obtain ⟨count, hdue, hmet⟩ := hfates.flushed hl hk
    have hlog := h.log
    rw [houtbox, List.append_nil] at hlog
    rw [Feed.meetAll_project] at hmet
    refine ⟨count, ?_⟩
    intro done
    have hdone : done = { directory with feed := directory.feed.run Lookup.project (Feed.rounds count) } :=
      run_moves directory fun _ hm => Feed.publishes_rounds hm
    rw [hwhole _ hlog, hmet, hdone]
    exact ⟨⟨houtbox, hdue⟩, rfl, rfl⟩

def namesake (seed : Nat) : Navigation := (Navigation.new (.ofSeed seed)).record (.created "main")

/-- A navigation is saved, the index begins to follow, and a navigation of the same name is saved. -/
def straddled : Directory :=
  let origin := Publisher.run ⟨4, 0, [], 0, true⟩ [(⟨0, 0⟩, .save (namesake 1))]
  (attach origin (Lookup.empty.catchUp origin.repository.log).1 1).run
    [.call ⟨1, 0⟩ (.save (namesake 2)), .publish, .move .look]

/-- The second of two navigations of one name is reported, though the index heard of one from the log and of the
other from the bus. -/
theorem straddled_agrees : straddled.Drained ∧ straddled.feed.Unlagged ∧
    straddled.feed.errors = [.duplicateName "main" (.ofSeed 1) (.ofSeed 2)] ∧
      straddled.feed.state = (Lookup.empty.catchUp (reached
        [(⟨0, 0⟩, .save (namesake 1)), (⟨1, 0⟩, .save (namesake 2))]).log).1 := by
  have hdrained : straddled.Drained := by decide +kernel
  have hunlagged : straddled.feed.Unlagged := by decide +kernel
  have hagrees := (late_index_agrees ⟨4, 0, [], 0, true⟩ rfl [(⟨0, 0⟩, .save (namesake 1))] 1
    [.call ⟨1, 0⟩ (.save (namesake 2)), .publish, .move .look] hunlagged).1 hdrained
  exact ⟨hdrained, hunlagged, by decide +kernel, hagrees.1⟩

end Directory

end Wayfinding
