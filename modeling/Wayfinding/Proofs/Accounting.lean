import Wayfinding.Proofs.Owed

namespace Wayfinding

namespace Fate

/-- These fates, one after the other, cover these envelopes. -/
inductive Account (filter : EventFilter) : List Fate → List Envelope → Prop where
  | nil : Account filter [] []
  | snoc {fates : List Fate} {fate : Fate} {envelopes first : List Envelope}
      (earlier : Account filter fates envelopes) (covers : fate.Covers filter first) :
      Account filter (fates ++ [fate]) (envelopes ++ first)

/-- The envelope that was taken from the bus, unless it was lost. -/
def consumed? : Fate → Option Envelope
  | handled envelope => some envelope
  | refused envelope => some envelope
  | lost _ => none

/-- How many envelopes a notice tells of. -/
def told : Fate → Nat
  | handled _ => 0
  | refused _ => 0
  | lost count => count

def consumed (fates : List Fate) : Nat := (fates.filterMap consumed?).length

def reported : List Fate → Nat
  | [] => 0
  | fate :: rest => fate.told + reported rest

theorem reported_append (fates more : List Fate) : reported (fates ++ more) = reported fates + reported more := by
  induction fates with
  | nil => exact (Nat.zero_add _).symm
  | cons fate rest ih => rw [List.cons_append, reported, reported, ih, Nat.add_assoc]

theorem Covers.count {filter : EventFilter} {fate : Fate} {first : List Envelope}
    (h : fate.Covers filter first) : consumed [fate] + reported [fate] = first.length := by
  cases h with
  | handled => rfl
  | refused => rfl
  | lost => simp [consumed, consumed?, reported, told]

theorem Covers.length_pos {filter : EventFilter} {fate : Fate} {first : List Envelope}
    (h : fate.Covers filter first) : 0 < first.length := by
  cases h with
  | handled => exact Nat.one_pos
  | refused => exact Nat.one_pos
  | lost _ some => exact List.length_pos_iff.mpr some

theorem Account.count {filter : EventFilter} {fates : List Fate} {envelopes : List Envelope}
    (h : Account filter fates envelopes) : consumed fates + reported fates = envelopes.length := by
  induction h with
  | nil => rfl
  | snoc _ covers ih =>
    have hfirst := covers.count
    unfold consumed at ih hfirst ⊢
    rw [List.filterMap_append, List.length_append, reported_append, List.length_append]
    omega

end Fate

/-- A follower of a bus, and what others have done with the two. -/
structure Feed (σ : Type) where
  bus : Bus
  follower : Follower
  state : σ
  /-- What was published since the follower subscribed, the oldest first. -/
  published : List Envelope
  /-- The errors that were read from its channel, the oldest first. -/
  read : List ProjectionError

namespace Feed

inductive Move where
  | publish (envelope : Envelope)
  /-- Somebody else subscribes. -/
  | join (filter : EventFilter)
  /-- Somebody else gives up a subscription. -/
  | leave
  | close
  /-- The smallest step of the follower. -/
  | look
  /-- A whole step of the follower, between two waits. -/
  | step
  /-- Reads so many errors, or as many as there are. -/
  | read (count : Nat)

section Moves

variable {σ : Type} (handle : σ → Envelope → σ × Option ProjectionError)

def start (bus : Bus) (component : String) (filter : EventFilter) (errorBuffer : Nat) (initial : σ) :
    Feed σ where
  bus := (bus.subscribe filter).2
  follower := .new component (bus.subscribe filter).1 errorBuffer
  state := initial
  published := []
  read := []

def become (feed : Feed σ) (next : σ × Follower) : Feed σ :=
  { feed with state := next.1, follower := next.2 }

/-- One move. Nobody can publish on a bus that is closed, and the follower does not give up its subscription. -/
def perform (feed : Feed σ) : Move → Feed σ
  | .publish envelope =>
    if feed.bus.isOpen then
      { feed with bus := (feed.bus.publish envelope).2, published := feed.published ++ [envelope] }
    else feed
  | .join filter => { feed with bus := (feed.bus.subscribe filter).2 }
  | .leave => if 1 < feed.bus.subscribers then { feed with bus := feed.bus.unsubscribe } else feed
  | .close => { feed with bus := feed.bus.close }
  | .look =>
    match feed.follower.look? handle feed.bus feed.state with
    | some next => feed.become next
    | none => feed
  | .step =>
    match feed.follower.step? handle feed.bus feed.state with
    | some next => feed.become next
    | none => feed
  | .read count =>
    { feed with
      follower := { feed.follower with
        reports := { feed.follower.reports with waiting := feed.follower.reports.waiting.drop count } }
      read := feed.read ++ feed.follower.reports.waiting.take count }

def run (feed : Feed σ) (moves : List Move) : Feed σ := moves.foldl (perform handle) feed

/-- To read as many errors as there are is to drain the channel. -/
theorem perform_read_drain (feed : Feed σ) :
    feed.perform handle (.read feed.follower.reports.waiting.length) =
      { feed with
        follower := { feed.follower with reports := feed.follower.reports.drain.2 }
        read := feed.read ++ feed.follower.reports.drain.1 } := by
  simp [perform, Reports.drain]

/-- A follower that runs on a bus takes whole steps. -/
theorem run_steps (feed : Feed σ) (fuel : Nat) :
    feed.run handle (List.replicate fuel .step) =
      feed.become (Follower.runFor handle feed.bus fuel feed.state feed.follower) := by
  induction fuel generalizing feed with
  | zero => rfl
  | succ fuel ih =>
    have hnext : feed.run handle (List.replicate (fuel + 1) .step) =
        (feed.perform handle .step).run handle (List.replicate fuel .step) := rfl
    rw [hnext, ih]
    cases hs : feed.follower.step? handle feed.bus feed.state with
    | none =>
      simp only [perform, Follower.runFor, hs]
      cases fuel with
      | zero => rfl
      | succ => simp only [Follower.runFor, hs]
    | some next =>
      simp only [perform, Follower.runFor, hs]
      rfl

/-- The state of the handler and the errors that came of some fates. -/
def meetAll (component : String) (initial : σ) (fates : List Fate) : σ × List ProjectionError :=
  fates.foldl
    (fun (state, errors) fate =>
      let (state, error) := Follower.meet handle component state fate
      (state, errors ++ error.toList))
    (initial, [])

theorem meetAll_snoc (component : String) (initial : σ) (fates : List Fate) (fate : Fate) :
    meetAll handle component initial (fates ++ [fate]) =
      ((Follower.meet handle component (meetAll handle component initial fates).1 fate).1,
        (meetAll handle component initial fates).2 ++
          (Follower.meet handle component (meetAll handle component initial fates).1 fate).2.toList) :=
  List.foldl_append

/-- What the follower comes to if nothing is published meanwhile. -/
def due (feed : Feed σ) : List Fate := feed.bus.due feed.follower.subscription

/-- How many envelopes the bus has dropped before the follower came to them, without a notice so far. -/
def overdue (feed : Feed σ) : Nat := feed.bus.dropped - feed.follower.subscription.next

/-- The errors that came about and were not read. -/
def unread (feed : Feed σ) : List ProjectionError :=
  feed.follower.reports.waiting ++ feed.follower.phase.held

/-- So many envelopes are overdue still, or the first fate that came about tells of them. -/
inductive Noticed (feed : Feed σ) (overdue : Nat) : List Fate → Prop where
  | waiting (kept : overdue ≤ feed.overdue) : Noticed feed overdue []
  | told (count : Nat) (rest : List Fate) (all : overdue ≤ count) : Noticed feed overdue (.lost count :: rest)

end Moves

/-- These fates explain a feed: they are those of the envelopes that the follower has passed, and its handler
was called and its errors came about as they say. -/
structure Explained {σ : Type} (handle : σ → Envelope → σ × Option ProjectionError) (component : String)
    (filter : EventFilter) (initial : σ) (fates : List Fate) (feed : Feed σ) : Prop where
  owner : feed.follower.component = component
  selection : feed.follower.subscription.filter = filter
  subscribed : 0 < feed.bus.subscribers
  isRead : feed.follower.reports.isRead = true
  capacity : 0 < feed.follower.reports.capacity
  account : ∃ passed pending, feed.published = passed ++ pending ∧ Fate.Account filter fates passed ∧
    feed.bus.Owes feed.follower.subscription pending
  met : meetAll handle component initial fates = (feed.state, feed.read ++ feed.unread)
  stopped : feed.follower.phase = .stopped → feed.bus.isOpen = false ∧ feed.due = []

section Explained

variable {σ : Type} {handle : σ → Envelope → σ × Option ProjectionError} {component : String}
  {filter : EventFilter} {initial : σ} {fates : List Fate} {feed : Feed σ}

theorem explained_start (bus : Bus) (component : String) (filter : EventFilter) (errorBuffer : Nat)
    (initial : σ) :
    Explained handle component filter initial [] (start bus component filter errorBuffer initial) where
  owner := rfl
  selection := rfl
  subscribed := Nat.succ_pos _
  isRead := rfl
  capacity := Nat.le_max_right _ _
  account := ⟨[], [], rfl, .nil, bus.owes_subscribe filter⟩
  met := rfl
  stopped h := by cases h

theorem Explained.publish (h : Explained handle component filter initial fates feed) (envelope : Envelope) :
    Explained handle component filter initial fates (feed.perform handle (.publish envelope)) := by
  simp only [perform]
  split
  · rename_i ho
    obtain ⟨passed, pending, hpublished, haccount, howes⟩ := h.account
    refine ⟨h.owner, h.selection, ?_, h.isRead, h.capacity, ?_, h.met, ?_⟩
    · rw [Bus.subscribers_publish]
      exact h.subscribed
    · refine ⟨passed, pending ++ [envelope], ?_, haccount, howes.publish h.subscribed envelope⟩
      rw [hpublished, List.append_assoc]
    · intro hs
      rw [(h.stopped hs).1] at ho
      cases ho
  · exact h

/-- What happens to a bus without a word about its envelopes changes nothing for the follower. -/
theorem Explained.elsewhere (h : Explained handle component filter initial fates feed) {bus : Bus}
    (hk : bus.kept = feed.bus.kept) (hd : bus.dropped = feed.bus.dropped) (hs : 0 < bus.subscribers)
    (ho : feed.bus.isOpen = false → bus.isOpen = false) :
    Explained handle component filter initial fates { feed with bus := bus } := by
  have hdue : bus.due feed.follower.subscription = feed.due := by
    simp only [due, Bus.due, Bus.waiting, hk, hd]
  obtain ⟨passed, pending, hpublished, haccount, howes⟩ := h.account
  refine ⟨h.owner, h.selection, hs, h.isRead, h.capacity, ⟨passed, pending, hpublished, haccount, ?_⟩, h.met, ?_⟩
  · exact howes.congr hk hd
  · intro hphase
    obtain ⟨hclosed, hnone⟩ := h.stopped hphase
    exact ⟨ho hclosed, hdue.trans hnone⟩

theorem Explained.read (h : Explained handle component filter initial fates feed) (count : Nat) :
    Explained handle component filter initial fates (feed.perform handle (.read count)) := by
  refine ⟨h.owner, h.selection, h.subscribed, h.isRead, h.capacity, h.account, ?_, h.stopped⟩
  rw [h.met]
  simp only [perform, unread]
  rw [List.append_assoc, ← List.append_assoc (List.take _ _), List.take_append_drop]

/-- A look meets the first fate that is due, or none. -/
theorem Explained.look (h : Explained handle component filter initial fates feed) {next : σ × Follower}
    (hl : feed.follower.look? handle feed.bus feed.state = some next) :
    ∃ more, Explained handle component filter initial (fates ++ more) (feed.become next) ∧
      more ++ (feed.become next).due = feed.due := by
  obtain ⟨error, reports, hphase, hsent, rfl⟩ | ⟨fate, rest, hphase, hdue, rfl⟩ |
    ⟨hphase, hdue, hclosed, rfl⟩ := Follower.look?_cases hl
  · obtain ⟨hplace, rfl⟩ := Reports.send?_read h.isRead hsent
    refine ⟨[], ?_, rfl⟩
    rw [List.append_nil]
    refine ⟨h.owner, h.selection, h.subscribed, h.isRead, h.capacity, h.account, ?_, fun hs => by cases hs⟩
    rw [h.met]
    simp [become, unread, hphase, Phase.held]
  · obtain ⟨passed, pending, hpublished, haccount, howes⟩ := h.account
    obtain ⟨first, others, hpending, hcovers, hsize, hnext, hrest⟩ := Bus.due_cons howes hdue
    rw [h.selection] at hcovers
    refine ⟨[fate], ⟨h.owner, h.selection, h.subscribed, h.isRead, h.capacity, ?_, ?_, ?_⟩, ?_⟩
    · refine ⟨passed ++ first, others, ?_, haccount.snoc hcovers, hnext⟩
      rw [List.append_assoc, ← hpending]
      exact hpublished
    · obtain rfl := h.owner
      have hbefore : feed.follower.phase.held = [] := by rw [hphase]; rfl
      have hafter : (feed.follower.take handle feed.state fate).2.phase.held =
          (Follower.meet handle feed.follower.component feed.state fate).2.toList := Phase.held_holding _
      rw [meetAll_snoc, h.met, unread, unread, hbefore, List.append_nil, List.append_assoc]
      simp only [become, hafter]
      rfl
    · intro hstopped
      exact absurd hstopped (Phase.holding_ne_stopped _)
    · have hrest : (feed.become (feed.follower.take handle feed.state fate)).due = rest := hrest
      rw [hrest]
      exact hdue.symm
  · refine ⟨[], ?_, rfl⟩
    rw [List.append_nil]
    refine ⟨h.owner, h.selection, h.subscribed, h.isRead, h.capacity, h.account, ?_, fun _ => ⟨hclosed, hdue⟩⟩
    rw [h.met]
    simp [become, unread, hphase, Phase.held, Follower.stop]

theorem Explained.looks {first last : σ × Follower} (hl : Follower.Looks handle feed.bus first last)
    (h : Explained handle component filter initial fates (feed.become first)) :
    ∃ more, Explained handle component filter initial (fates ++ more) (feed.become last) ∧
      more ++ (feed.become last).due = (feed.become first).due := by
  induction hl generalizing fates with
  | done => exact ⟨[], by rwa [List.append_nil], rfl⟩
  | look looked _ ih =>
    obtain ⟨met, hmet, hdue⟩ := h.look looked
    obtain ⟨more, hmore, hrest⟩ := ih hmet
    refine ⟨met ++ more, by rwa [← List.append_assoc], ?_⟩
    rw [List.append_assoc, hrest]
    exact hdue

/-- Whoever only takes looks comes to the notice first. -/
theorem noticed_of_due {after : Feed σ} {more : List Fate} (hdue : more ++ after.due = feed.due)
    (ho : 0 < feed.overdue) : after.Noticed feed.overdue more := by
  have hnotice : feed.due = .lost feed.overdue :: _ := Bus.due_of_overdue (Nat.lt_of_sub_pos ho)
  rw [hnotice] at hdue
  cases more with
  | nil => exact .waiting (Nat.le_of_eq (Bus.overdue_of_due hdue).symm)
  | cons fate rest =>
    obtain ⟨rfl, _⟩ := List.cons.inj hdue
    exact .told _ rest (Nat.le_refl _)

theorem Noticed.trans {next last : Feed σ} {overdue : Nat} {first more : List Fate}
    (h : next.Noticed overdue first) (hn : 0 < next.overdue → last.Noticed next.overdue more)
    (ho : 0 < overdue) : last.Noticed overdue (first ++ more) := by
  cases h with
  | waiting kept =>
    cases hn (Nat.lt_of_lt_of_le ho kept) with
    | waiting still => exact .waiting (Nat.le_trans kept still)
    | told count rest all => exact .told count rest (Nat.le_trans kept all)
  | told count rest all => exact .told count (rest ++ more) all

/-- Whatever happens, what was explained stays so, and the follower may have met more fates; the notice of what
was overdue is the first of them. -/
theorem Explained.perform (h : Explained handle component filter initial fates feed) (move : Move) :
    ∃ more, Explained handle component filter initial (fates ++ more) (feed.perform handle move) ∧
      (0 < feed.overdue → (feed.perform handle move).Noticed feed.overdue more) := by
  have unmoved : Explained handle component filter initial (fates ++ []) feed := by rwa [List.append_nil]
  have unmet : 0 < feed.overdue → feed.Noticed feed.overdue [] := fun _ => .waiting (Nat.le_refl _)
  cases move with
  | publish envelope =>
    refine ⟨[], ?_, fun _ => .waiting ?_⟩
    · rw [List.append_nil]
      exact h.publish envelope
    · simp only [Feed.perform, overdue]
      split
      · exact Nat.sub_le_sub_right (Bus.dropped_publish _ _) _
      · exact Nat.le_refl _
  | join filter =>
    exact ⟨[], unmoved.elsewhere rfl rfl (Nat.succ_pos _) id, fun _ => .waiting (Nat.le_refl _)⟩
  | leave =>
    simp only [Feed.perform]
    split
    · rename_i others
      exact ⟨[], unmoved.elsewhere rfl rfl (Nat.sub_pos_of_lt others) id, fun _ => .waiting (Nat.le_refl _)⟩
    · exact ⟨[], unmoved, unmet⟩
  | close =>
    exact ⟨[], unmoved.elsewhere rfl rfl h.subscribed fun _ => rfl, fun _ => .waiting (Nat.le_refl _)⟩
  | look =>
    simp only [Feed.perform]
    split
    · rename_i next hl
      obtain ⟨more, hmore, hdue⟩ := h.look hl
      exact ⟨more, hmore, noticed_of_due hdue⟩
    · exact ⟨[], unmoved, unmet⟩
  | step =>
    simp only [Feed.perform]
    split
    · rename_i next hs
      obtain ⟨_, pending, _, _, howes⟩ := h.account
      obtain ⟨more, hmore, hdue⟩ := Explained.looks (Follower.looks_step? howes hs) h
      exact ⟨more, hmore, noticed_of_due hdue⟩
    · exact ⟨[], unmoved, unmet⟩
  | read count =>
    refine ⟨[], ?_, fun _ => .waiting (Nat.le_refl _)⟩
    rw [List.append_nil]
    exact h.read count

theorem Explained.run (h : Explained handle component filter initial fates feed) (moves : List Move) :
    ∃ more, Explained handle component filter initial (fates ++ more) (feed.run handle moves) ∧
      (0 < feed.overdue → (feed.run handle moves).Noticed feed.overdue more) := by
  induction moves generalizing fates feed with
  | nil => exact ⟨[], by rwa [List.append_nil], fun _ => .waiting (Nat.le_refl _)⟩
  | cons move rest ih =>
    obtain ⟨first, hfirst, hnoticed⟩ := h.perform move
    obtain ⟨more, hmore, hlater⟩ := ih hfirst
    exact ⟨first ++ more, by rwa [← List.append_assoc], fun ho => (hnoticed ho).trans hlater ho⟩

/-- How long a follower with a reader takes to be done: rounds for what is to come, for the error that it holds,
and for each error in the channel. -/
def cost (feed : Feed σ) : Nat :=
  3 * (feed.bus.published - feed.follower.subscription.next) + 2 * feed.follower.phase.held.length +
    feed.follower.reports.waiting.length

def round : List Move := [.look, .read 1]

def rounds (count : Nat) : List Move := (List.replicate count round).flatten

theorem run_rounds_succ (feed : Feed σ) (count : Nat) :
    feed.run handle (rounds (count + 1)) = (feed.run handle round).run handle (rounds count) := by
  unfold rounds
  rw [List.replicate_succ, List.flatten_cons]
  exact List.foldl_append

/-- A look brings the follower nearer to its end, unless it can not look; then there is something to read, or it
is done. -/
theorem Explained.cost_look (h : Explained handle component filter initial fates feed) :
    (feed.perform handle .look).cost < feed.cost ∨
      (feed.perform handle .look).cost = feed.cost ∧
        ((feed.perform handle .look).follower.reports.waiting = [] → feed.cost = 0) := by
  obtain ⟨_, pending, _, _, howes⟩ := h.account
  have hlength := howes.length
  have hdone : feed.due = [] → feed.bus.published - feed.follower.subscription.next = 0 := by
    intro hdue
    rw [Bus.pending_of_due_nil howes hdue, List.length_nil] at hlength
    omega
  simp only [Feed.perform]
  cases hl : feed.follower.look? handle feed.bus feed.state with
  | none =>
    right
    refine ⟨rfl, fun hempty => ?_⟩
    obtain ⟨error, hphase, hs⟩ | ⟨hphase, hdue⟩ | hphase := Follower.look?_eq_none hl
    · have hfull := Reports.send?_eq_none hs
      have hplace := h.capacity
      rw [hempty, List.length_nil] at hfull
      omega
    · simp only [cost, hdone hdue, hphase, Phase.held, hempty, List.length_nil]
    · simp only [cost, hdone (h.stopped hphase).2, hphase, Phase.held, hempty, List.length_nil]
  | some next =>
    obtain ⟨error, reports, hphase, hsent, rfl⟩ | ⟨fate, rest, hphase, hdue, rfl⟩ |
      ⟨hphase, hdue, hclosed, rfl⟩ := Follower.look?_cases hl
    · left
      obtain ⟨_, rfl⟩ := Reports.send?_read h.isRead hsent
      simp only [cost, become, hphase, Phase.held, List.length_append, List.length_singleton, List.length_nil]
      omega
    · left
      obtain ⟨first, others, hpending, hcovers, hsize, _, _⟩ := Bus.due_cons howes hdue
      have hfirst := hcovers.length_pos
      have hheld := Phase.length_held_le (feed.follower.take handle feed.state fate).2.phase
      have hnext : (feed.follower.take handle feed.state fate).2.subscription.next =
          feed.follower.subscription.next + fate.size := rfl
      have hreports : (feed.follower.take handle feed.state fate).2.reports = feed.follower.reports := rfl
      rw [hpending, List.length_append] at hlength
      simp only [cost, become, hnext, hreports, hphase]
      omega
    · right
      refine ⟨?_, fun hempty => ?_⟩
      · simp only [cost, become, Follower.stop, hphase, Phase.held]
      · simp only [become, Follower.stop] at hempty
        simp only [cost, hdone hdue, hphase, Phase.held, hempty, List.length_nil]

/-- A round meets what is due and brings the follower nearer to its end. -/
theorem Explained.round (h : Explained handle component filter initial fates feed) :
    ∃ more, Explained handle component filter initial (fates ++ more) (feed.run handle round) ∧
      more ++ (feed.run handle round).due = feed.due ∧ (feed.run handle round).cost ≤ feed.cost - 1 ∧
      (feed.run handle round).published = feed.published := by
  have hround : feed.run handle Feed.round = (feed.perform handle .look).perform handle (.read 1) := rfl
  have hlook : ∃ more, Explained handle component filter initial (fates ++ more) (feed.perform handle .look) ∧
      more ++ (feed.perform handle .look).due = feed.due ∧
      (feed.perform handle .look).published = feed.published := by
    simp only [Feed.perform]
    split
    · rename_i next hl
      obtain ⟨more, hmore, hdue⟩ := h.look hl
      exact ⟨more, hmore, hdue, rfl⟩
    · exact ⟨[], by rwa [List.append_nil], rfl, rfl⟩
  obtain ⟨more, hmore, hdue, hpublished⟩ := hlook
  rw [hround]
  refine ⟨more, hmore.read 1, hdue, ?_, hpublished⟩
  have hread : ((feed.perform handle .look).perform handle (.read 1)).cost +
      min 1 (feed.perform handle .look).follower.reports.waiting.length = (feed.perform handle .look).cost := by
    simp only [Feed.perform, cost, List.length_drop]
    omega
  obtain hless | ⟨hsame, hempty⟩ := h.cost_look
  · omega
  · by_cases hwaiting : (feed.perform handle .look).follower.reports.waiting = []
    · have hzero := hempty hwaiting
      omega
    · have hpos := List.length_pos_iff.mpr hwaiting
      omega

/-- After rounds enough, everything that was due is met and every error is read. -/
theorem Explained.rounds (h : Explained handle component filter initial fates feed) (count : Nat) :
    ∃ more, Explained handle component filter initial (fates ++ more) (feed.run handle (rounds count)) ∧
      more ++ (feed.run handle (rounds count)).due = feed.due ∧
      (feed.run handle (rounds count)).cost ≤ feed.cost - count ∧
      (feed.run handle (rounds count)).published = feed.published := by
  induction count generalizing fates feed with
  | zero => exact ⟨[], by rwa [List.append_nil], rfl, Nat.le_refl _, rfl⟩
  | succ count ih =>
    obtain ⟨first, hfirst, hdue, hcost, hpublished⟩ := h.round
    obtain ⟨more, hmore, hrest, hless, hsame⟩ := ih hfirst
    rw [run_rounds_succ]
    refine ⟨first ++ more, by rwa [← List.append_assoc], ?_, by omega, hsame.trans hpublished⟩
    rw [List.append_assoc, hrest, hdue]

/-- What was published has passed by the follower, is overdue because the bus has dropped it before the follower
came to it, or is buffered; what has passed has these fates, and the numbers add up. -/
def Balanced (filter : EventFilter) (fates : List Fate) (feed : Feed σ) : Prop :=
  let buffered := feed.bus.waiting feed.follower.subscription
  ∃ passed dropped, feed.published = passed ++ dropped ++ buffered ∧ dropped.length = feed.overdue ∧
    Fate.Account filter fates passed ∧
    Fate.consumed fates + Fate.reported fates + feed.overdue + buffered.length = feed.published.length

theorem Explained.balanced (h : Explained handle component filter initial fates feed) :
    feed.Balanced filter fates := by
  obtain ⟨passed, pending, hpublished, haccount, howes⟩ := h.account
  have hoverdue : (pending.take feed.overdue).length = feed.overdue := howes.length_overdue
  have hall : feed.published =
      passed ++ pending.take feed.overdue ++ feed.bus.waiting feed.follower.subscription := by
    rw [howes.waiting, List.append_assoc, overdue, List.take_append_drop]
    exact hpublished
  refine ⟨passed, _, hall, hoverdue, haccount, ?_⟩
  rw [haccount.count, hall, List.length_append, List.length_append, hoverdue]

theorem Explained.settled (h : Explained handle component filter initial fates feed) (hc : feed.cost = 0) :
    feed.due = [] ∧ Fate.Account filter fates feed.published ∧
      meetAll handle component initial fates = (feed.state, feed.read) := by
  obtain ⟨passed, pending, hpublished, haccount, howes⟩ := h.account
  have hlength := howes.length
  unfold cost at hc
  have hpending : pending = [] := List.eq_nil_of_length_eq_zero (by omega)
  have hchannel : feed.follower.reports.waiting = [] := List.eq_nil_of_length_eq_zero (by omega)
  have hheld : feed.follower.phase.held = [] := List.eq_nil_of_length_eq_zero (by omega)
  have hmet := h.met
  rw [hpending] at howes
  rw [hpending, List.append_nil] at hpublished
  rw [unread, hchannel, hheld, List.append_nil, List.append_nil] at hmet
  exact ⟨Bus.due_of_owed_nil howes, by rwa [hpublished], hmet⟩

end Explained

/-- Everything that was published has one fate, in the order of publication, or is overdue or buffered; the
handler was called and the errors came about as the fates say. What is overdue the next notice counts. -/
theorem published_accounted {σ : Type} (handle : σ → Envelope → σ × Option ProjectionError) (bus : Bus)
    (component : String) (filter : EventFilter) (errorBuffer : Nat) (initial : σ) (moves : List Move) :
    let feed := (start bus component filter errorBuffer initial).run handle moves
    ∃ fates, feed.Balanced filter fates ∧
      meetAll handle component initial fates = (feed.state, feed.read ++ feed.unread) ∧
      (∀ later, ∃ more, (feed.run handle later).Balanced filter (fates ++ more) ∧
        meetAll handle component initial (fates ++ more) =
          ((feed.run handle later).state, (feed.run handle later).read ++ (feed.run handle later).unread) ∧
        (0 < feed.overdue → (feed.run handle later).Noticed feed.overdue more)) ∧
      ∃ count,
        let settled := feed.run handle (rounds count)
        settled.published = feed.published ∧ Fate.Account filter (fates ++ feed.due) feed.published ∧
          meetAll handle component initial (fates ++ feed.due) = (settled.state, settled.read) := by
  intro feed
  have hstart : Explained handle component filter initial [] (start bus component filter errorBuffer initial) :=
    explained_start bus component filter errorBuffer initial
  obtain ⟨fates, h, _⟩ := hstart.run moves
  change Explained handle component filter initial fates feed at h
  refine ⟨fates, h.balanced, h.met, fun later => ?_, feed.cost, ?_⟩
  · obtain ⟨more, hmore, hnoticed⟩ := h.run later
    exact ⟨more, hmore.balanced, hmore.met, hnoticed⟩
  · obtain ⟨more, hmore, hdue, hcost, hpublished⟩ := h.rounds feed.cost
    have hdone := hmore.settled (by omega)
    rw [hdone.1, List.append_nil] at hdue
    rw [hdue, hpublished] at hdone
    exact ⟨hpublished, hdone.2.1, hdone.2.2⟩

/-- A handler that writes down what it is called with. -/
def note (handled : List Envelope) (envelope : Envelope) : List Envelope × Option ProjectionError :=
  (handled ++ [envelope], none)

def burst : List Move := List.replicate 5 (.publish (.ofEvent (.ofSeed 1) 1 ⟨0, 0⟩ (.created "main")))

/-- A bus for two has dropped three of five before the follower looks at it. No fates of what was published, with
what is buffered, come to five: any fate would show in the handler or in the errors. -/
theorem burst_overdue :
    let feed := (start (Bus.new 2) "test" .all 4 []).run note burst
    let buffered := feed.bus.waiting feed.follower.subscription
    feed.published.length = 5 ∧ buffered.length = 2 ∧ feed.overdue = 3 ∧
      ¬∃ fates passed, passed <+: feed.published ∧ Fate.Account .all fates passed ∧
        meetAll note "test" [] fates = (feed.state, feed.read ++ feed.unread) ∧
        Fate.consumed fates + Fate.reported fates + buffered.length = feed.published.length := by
  intro feed buffered
  have hpublished : feed.published.length = 5 := by decide +kernel
  have hbuffered : buffered.length = 2 := by decide +kernel
  have hoverdue : feed.overdue = 3 := by decide +kernel
  have hnothing : (feed.state, feed.read ++ feed.unread) = ([], []) := by decide +kernel
  have haccepted : ∀ envelope ∈ feed.published, EventFilter.all.accepts envelope = true := by decide +kernel
  refine ⟨hpublished, hbuffered, hoverdue, ?_⟩
  rintro ⟨fates, passed, hpassed, haccount, hmet, hcount⟩
  rw [hpublished, hbuffered] at hcount
  rw [hnothing] at hmet
  cases haccount with
  | nil => cases hcount
  | snoc _ covers =>
    rw [meetAll_snoc] at hmet
    obtain ⟨hstate, herrors⟩ := Prod.mk.inj hmet
    cases covers with
    | handled envelope => exact List.append_ne_nil_of_right_ne_nil _ (List.cons_ne_nil _ _) hstate
    | refused envelope refused =>
      have hmem := hpassed.subset (List.mem_append_right _ (List.mem_singleton_self envelope))
      rw [haccepted envelope hmem] at refused
      cases refused
    | lost envelopes => exact List.append_ne_nil_of_right_ne_nil _ (List.cons_ne_nil _ _) herrors

example (envelope : Envelope) :
    ((start (Bus.new 2) "test" .all 4 ()).run (fun state _ => (state, none))
      (List.replicate 5 (.publish envelope) ++ [.look, .look, .read 1])).read = [.lagged "test" 3] := by
  cbv

end Feed

end Wayfinding
