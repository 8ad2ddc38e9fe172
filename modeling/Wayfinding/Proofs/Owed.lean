import Wayfinding.Follower
import Wayfinding.Proofs.Delivery

namespace Wayfinding

namespace Bus

/-- These envelopes were published, and the subscription has not come to them yet. The bus may have dropped some
of them, the oldest first. -/
structure Owes (bus : Bus) (subscription : Subscription) (pending : List Envelope) : Prop where
  length : subscription.next + pending.length = bus.published
  waiting : bus.waiting subscription = pending.drop (bus.dropped - subscription.next)

section Owes

variable {bus : Bus} {subscription : Subscription} {pending : List Envelope}

theorem owes_subscribe (bus : Bus) (filter : EventFilter) :
    Owes (bus.subscribe filter).2 (bus.subscribe filter).1 [] where
  length := rfl
  waiting := by simp [subscribe, waiting, published]

theorem Owes.congr {other : Bus} (h : Owes bus subscription pending) (hk : other.kept = bus.kept)
    (hd : other.dropped = bus.dropped) : Owes other subscription pending := by
  obtain ⟨hlength, hwaiting⟩ := h
  constructor
  · rw [hlength, published, published, hk, hd]
  · rw [hd, ← hwaiting, Bus.waiting, Bus.waiting, hk, hd]

theorem Owes.publish (h : Owes bus subscription pending) (hs : 0 < bus.subscribers) (envelope : Envelope) :
    Owes (bus.publish envelope).2 subscription (pending ++ [envelope]) := by
  obtain ⟨hlength, hwaiting⟩ := h
  constructor
  · rw [published_publish bus envelope hs, ← hlength, List.length_append, List.length_singleton]
    omega
  · rw [publish_eq bus envelope hs]
    generalize hexcess : (bus.kept ++ [envelope]).length - bus.capacity = excess
    simp only [Bus.waiting, published, List.drop_drop] at hwaiting hlength ⊢
    have hkept : subscription.next - bus.dropped ≤ bus.kept.length := by omega
    have hpending : bus.dropped - subscription.next ≤ pending.length := by omega
    -- Both sides drop more of what was left with the new envelope at its end.
    have hleft : excess + (subscription.next - (bus.dropped + excess)) =
        subscription.next - bus.dropped + (excess - (subscription.next - bus.dropped)) := by omega
    have hright : bus.dropped + excess - subscription.next =
        bus.dropped - subscription.next + (excess - (subscription.next - bus.dropped)) := by omega
    rw [hleft, hright, ← List.drop_drop, ← List.drop_drop, List.drop_append_of_le_length hkept,
      List.drop_append_of_le_length hpending, hwaiting]

/-- Who passes the first envelopes, the dropped ones among them, is owed the others. -/
theorem Owes.pass (first : List Envelope) {others : List Envelope}
    (h : Owes bus subscription (first ++ others))
    (hd : bus.dropped ≤ subscription.next + first.length) :
    Owes bus { subscription with next := subscription.next + first.length } others := by
  obtain ⟨hlength, hwaiting⟩ := h
  rw [List.length_append, ← Nat.add_assoc] at hlength
  refine ⟨hlength, ?_⟩
  have hmore : bus.waiting { subscription with next := subscription.next + first.length } =
      (bus.waiting subscription).drop (first.length - (bus.dropped - subscription.next)) := by
    simp only [Bus.waiting, List.drop_drop]
    congr 1
    omega
  have hpassed : bus.dropped - subscription.next +
      (first.length - (bus.dropped - subscription.next)) = first.length := by omega
  rw [hmore, hwaiting, List.drop_drop, hpassed, List.drop_left, Nat.sub_eq_zero_of_le hd]
  rfl

/-- What the bus has dropped too early for the subscription is the first part of what it owes. -/
theorem Owes.length_overdue (h : Owes bus subscription pending) :
    (pending.take (bus.dropped - subscription.next)).length = bus.dropped - subscription.next := by
  have hlength := h.length
  have hdropped : bus.dropped ≤ bus.published := Nat.le_add_right _ _
  rw [List.length_take]
  omega

end Owes

end Bus

/-- What becomes of what was published, for one subscription. -/
inductive Fate where
  | handled (envelope : Envelope)
  /-- The filter does not accept it. -/
  | refused (envelope : Envelope)
  /-- So many were lost and told of in one notice. -/
  | lost (count : Nat)
deriving DecidableEq

namespace Fate

def ofEnvelope (filter : EventFilter) (envelope : Envelope) : Fate :=
  if filter.accepts envelope then .handled envelope else .refused envelope

/-- How many envelopes share the fate. -/
def size : Fate → Nat
  | handled _ => 1
  | refused _ => 1
  | lost count => count

/-- The fate is one that these envelopes can have together. -/
inductive Covers (filter : EventFilter) : Fate → List Envelope → Prop where
  | handled (envelope : Envelope) (accepted : filter.accepts envelope = true) :
      Covers filter (.handled envelope) [envelope]
  | refused (envelope : Envelope) (refused : filter.accepts envelope = false) :
      Covers filter (.refused envelope) [envelope]
  | lost (envelopes : List Envelope) (some : envelopes ≠ []) :
      Covers filter (.lost envelopes.length) envelopes

theorem ofEnvelope_accepted {filter : EventFilter} {envelope : Envelope}
    (h : filter.accepts envelope = true) : ofEnvelope filter envelope = .handled envelope := if_pos h

theorem ofEnvelope_refused {filter : EventFilter} {envelope : Envelope}
    (h : filter.accepts envelope = false) : ofEnvelope filter envelope = .refused envelope :=
  if_neg (Bool.eq_false_iff.mp h)

theorem covers_ofEnvelope (filter : EventFilter) (envelope : Envelope) :
    Covers filter (ofEnvelope filter envelope) [envelope] := by
  cases h : filter.accepts envelope with
  | true =>
    rw [ofEnvelope_accepted h]
    exact .handled envelope h
  | false =>
    rw [ofEnvelope_refused h]
    exact .refused envelope h

theorem lost_ne_ofEnvelope (filter : EventFilter) (envelope : Envelope) (count : Nat) :
    lost count ≠ ofEnvelope filter envelope := by
  unfold ofEnvelope
  split <;> exact nofun

theorem size_ofEnvelope (filter : EventFilter) (envelope : Envelope) : (ofEnvelope filter envelope).size = 1 := by
  unfold ofEnvelope
  split <;> rfl

end Fate

namespace Bus

/-- The notice of so many lost envelopes, if there are any. -/
def notice : Nat → List Fate
  | 0 => []
  | lost + 1 => [.lost (lost + 1)]

/-- What a subscription comes to if nothing is published meanwhile. -/
def due (bus : Bus) (subscription : Subscription) : List Fate :=
  notice (bus.dropped - subscription.next) ++
    (bus.waiting subscription).map (Fate.ofEnvelope subscription.filter)

section Due

variable {bus : Bus} {subscription : Subscription} {pending : List Envelope}

/-- What the bus has dropped too early for the subscription is told of first. -/
theorem due_of_overdue (hl : subscription.next < bus.dropped) :
    bus.due subscription = .lost (bus.dropped - subscription.next) ::
      (bus.waiting subscription).map (Fate.ofEnvelope subscription.filter) := by
  obtain ⟨lost, hlost⟩ := Nat.exists_eq_succ_of_ne_zero (Nat.sub_ne_zero_of_lt hl)
  rw [due, hlost]
  rfl

theorem due_of_lost (h : Owes bus subscription pending) (hl : subscription.next < bus.dropped) :
    bus.due subscription = .lost (bus.dropped - subscription.next) ::
      (pending.drop (bus.dropped - subscription.next)).map (Fate.ofEnvelope subscription.filter) := by
  rw [due_of_overdue hl, h.waiting]

theorem due_of_kept (h : Owes bus subscription pending) (hk : bus.dropped ≤ subscription.next) :
    bus.due subscription = pending.map (Fate.ofEnvelope subscription.filter) := by
  rw [due, h.waiting, Nat.sub_eq_zero_of_le hk]
  rfl

theorem overdue_of_due {count : Nat} {rest : List Fate}
    (h : bus.due subscription = .lost count :: rest) : bus.dropped - subscription.next = count := by
  unfold due at h
  cases hlost : bus.dropped - subscription.next with
  | zero =>
    rw [hlost, notice, List.nil_append] at h
    obtain ⟨envelope, _, _, hfate, _⟩ := List.map_eq_cons_iff.mp h
    exact absurd hfate.symm (Fate.lost_ne_ofEnvelope subscription.filter envelope count)
  | succ lost =>
    rw [hlost, notice] at h
    cases h
    rfl

theorem due_of_owed_nil (h : Owes bus subscription []) : bus.due subscription = [] := by
  have hlength := h.length
  have hdropped : bus.dropped ≤ bus.published := Nat.le_add_right _ _
  rw [List.length_nil] at hlength
  exact due_of_kept h (by omega)

theorem pending_of_due_nil (h : Owes bus subscription pending) (hn : bus.due subscription = []) :
    pending = [] := by
  by_cases hk : bus.dropped ≤ subscription.next
  · rw [due_of_kept h hk] at hn
    exact List.map_eq_nil_iff.mp hn
  · rw [due_of_lost h (Nat.lt_of_not_le hk)] at hn
    cases hn

/-- The first fate that is due covers the first envelopes that are owed; the others stay due and owed. -/
theorem due_cons {fate : Fate} {rest : List Fate} (h : Owes bus subscription pending)
    (hd : bus.due subscription = fate :: rest) :
    ∃ first others, pending = first ++ others ∧ fate.Covers subscription.filter first ∧
      fate.size = first.length ∧
      Owes bus { subscription with next := subscription.next + fate.size } others ∧
      bus.due { subscription with next := subscription.next + fate.size } = rest := by
  by_cases hk : bus.dropped ≤ subscription.next
  · rw [due_of_kept h hk] at hd
    obtain ⟨envelope, others, rfl, rfl, rfl⟩ := List.map_eq_cons_iff.mp hd
    rw [Fate.size_ofEnvelope]
    have hnext : Owes bus { subscription with next := subscription.next + 1 } others :=
      Owes.pass [envelope] h (Nat.le_add_right_of_le hk)
    refine ⟨[envelope], others, rfl, Fate.covers_ofEnvelope _ envelope, rfl, hnext, ?_⟩
    exact due_of_kept hnext (Nat.le_add_right_of_le hk)
  · have hl := Nat.lt_of_not_le hk
    rw [due_of_lost h hl] at hd
    obtain ⟨rfl, rfl⟩ := List.cons.inj hd
    have hlength := h.length_overdue
    have hcaught : bus.dropped ≤ subscription.next + (bus.dropped - subscription.next) := by omega
    rw [← List.take_append_drop (bus.dropped - subscription.next) pending] at h
    have hnext := Owes.pass _ h (by rwa [hlength])
    rw [hlength] at hnext
    have hsome : pending.take (bus.dropped - subscription.next) ≠ [] := by
      intro hnil
      rw [hnil, List.length_nil] at hlength
      omega
    have hcovers := @Fate.Covers.lost subscription.filter _ hsome
    rw [hlength] at hcovers
    exact ⟨_, _, (List.take_append_drop (bus.dropped - subscription.next) pending).symm, hcovers,
      hlength.symm, hnext, due_of_kept hnext hcaught⟩

end Due

/-- What is received when nothing was dropped: the first envelope that the filter accepts, or nothing. -/
theorem receive_kept {bus : Bus} {subscription : Subscription} {pending : List Envelope}
    (h : Owes bus subscription pending) (hk : bus.dropped ≤ subscription.next) :
    ∃ refused rest, pending = refused ++ rest ∧
      (∀ envelope ∈ refused, subscription.filter.accepts envelope = false) ∧
      ((∃ envelope others, rest = envelope :: others ∧ subscription.filter.accepts envelope = true ∧
          bus.receive subscription =
            (.envelope envelope, { subscription with next := subscription.next + refused.length + 1 })) ∨
        rest = [] ∧ bus.receive subscription =
          (if bus.isOpen then .nothing else .closed,
            { subscription with next := subscription.next + refused.length })) := by
  have hlength := h.length
  have hwaiting : bus.waiting subscription = pending := by
    rw [h.waiting, Nat.sub_eq_zero_of_le hk]
    rfl
  have hsplit := @List.takeWhile_append_dropWhile _
    (fun envelope => !subscription.filter.accepts envelope) pending
  have hrefused := List.all_eq_true.mp <| @List.all_takeWhile _
    (fun envelope => !subscription.filter.accepts envelope) pending
  refine ⟨_, _, hsplit.symm, fun envelope he => by simpa using hrefused envelope he, ?_⟩
  rw [receive, if_neg (Nat.not_lt.mpr hk), hwaiting]
  generalize List.takeWhile _ pending = refused at hsplit
  cases hrest : List.dropWhile (fun envelope => !subscription.filter.accepts envelope) pending with
  | nil =>
    rw [hrest, List.append_nil] at hsplit
    rw [← hsplit] at hlength
    right
    refine ⟨rfl, ?_⟩
    simp only [hlength]
  | cons envelope others =>
    have hsome : pending.dropWhile (fun envelope => !subscription.filter.accepts envelope) ≠ [] := by
      rw [hrest]
      exact List.cons_ne_nil envelope others
    have accepted := List.head_dropWhile_not _ hsome
    simp only [hrest, List.head_cons] at accepted
    rw [← hsplit, hrest, List.length_append, List.length_cons] at hlength
    have hnext : bus.published - others.length = subscription.next + refused.length + 1 := by omega
    left
    refine ⟨envelope, others, rfl, by simpa using accepted, ?_⟩
    simp only [hnext]

end Bus

namespace Reports

theorem send?_read {reports sent : Reports} {error : ProjectionError} (hr : reports.isRead = true)
    (h : reports.send? error = some sent) : reports.waiting.length < reports.capacity ∧
      sent = { reports with waiting := reports.waiting ++ [error] } := by
  unfold send? at h
  rw [if_neg (not_not_intro hr)] at h
  split at h
  · rename_i hplace
    cases h
    exact ⟨hplace, rfl⟩
  · cases h

theorem send?_eq_none {reports : Reports} {error : ProjectionError}
    (h : reports.send? error = none) : reports.capacity ≤ reports.waiting.length := by
  unfold send? at h
  split at h
  · cases h
  · split at h
    · cases h
    · rename_i hfull
      exact Nat.le_of_not_lt hfull

end Reports

namespace Phase

def holding : Option ProjectionError → Phase
  | none => .listening
  | some error => .stalled error

/-- The error that waits for a place, if there is one. -/
def held : Phase → List ProjectionError
  | listening => []
  | stalled error => [error]
  | stopped => []

theorem held_holding (error : Option ProjectionError) : (holding error).held = error.toList := by
  cases error <;> rfl

theorem length_held_le (phase : Phase) : phase.held.length ≤ 1 := by
  cases phase <;> simp [held]

theorem holding_ne_stopped (error : Option ProjectionError) : holding error ≠ .stopped := by
  cases error <;> exact nofun

end Phase

namespace Follower

variable {σ : Type} (handle : σ → Envelope → σ × Option ProjectionError) (bus : Bus) (state : σ)
  (follower : Follower)

/-- What the component does about a fate: only an envelope that the filter accepts reaches its handler, and a
loss is an error. -/
def meet (component : String) (state : σ) : Fate → σ × Option ProjectionError
  | .handled envelope => handle state envelope
  | .refused _ => (state, none)
  | .lost count => (state, some (.lagged component count))

def advance (count : Nat) : Follower :=
  { follower with subscription := { follower.subscription with next := follower.subscription.next + count } }

/-- The follower with an error to get rid of, or none. -/
def hold (error : Option ProjectionError) : Follower := { follower with phase := .holding error }

def take (fate : Fate) : σ × Follower :=
  let (state, error) := meet handle follower.component state fate
  (state, (follower.advance fate.size).hold error)

/-- The smallest step of a follower: it gets rid of the error that it waits with, or looks at what comes next on
the bus. -/
def look? : Option (σ × Follower) :=
  match follower.phase with
  | .stopped => none
  | .stalled error =>
    (follower.reports.send? error).map fun reports =>
      (state, { follower with reports := reports, phase := .listening })
  | .listening =>
    match bus.due follower.subscription with
    | fate :: _ => some (follower.take handle state fate)
    | [] => if bus.isOpen then none else some (state, follower.stop)

/-- A chain of looks at the bus as it is. -/
inductive Looks : σ × Follower → σ × Follower → Prop where
  | done (last : σ × Follower) : Looks last last
  | look {first next last : σ × Follower} (looked : look? handle bus first.1 first.2 = some next)
      (more : Looks next last) : Looks first last

section Looks

variable {handle bus state follower} {pending : List Envelope}

theorem Looks.trans {first next last : σ × Follower} (h : Looks handle bus first next)
    (hn : Looks handle bus next last) : Looks handle bus first last := by
  induction h with
  | done => exact hn
  | look looked _ ih => exact .look looked (ih hn)

theorem look?_listening {fate : Fate} {rest : List Fate} (hl : follower.phase = .listening)
    (hd : bus.due follower.subscription = fate :: rest) :
    look? handle bus state follower = some (follower.take handle state fate) := by
  unfold look?
  rw [hl, hd]

/-- Everything that a look can be: a held error is put into the channel, the first fate that is due is met, or the
follower stops because nothing is left and nothing will come. -/
theorem look?_cases {next : σ × Follower} (h : look? handle bus state follower = some next) :
    (∃ error reports, follower.phase = .stalled error ∧ follower.reports.send? error = some reports ∧
        next = (state, { follower with reports := reports, phase := .listening })) ∨
      (∃ fate rest, follower.phase = .listening ∧ bus.due follower.subscription = fate :: rest ∧
        next = follower.take handle state fate) ∨
      (follower.phase = .listening ∧ bus.due follower.subscription = [] ∧ bus.isOpen = false ∧
        next = (state, follower.stop)) := by
  unfold look? at h
  split at h
  · cases h
  · rename_i error hphase
    obtain ⟨reports, hs, rfl⟩ := Option.map_eq_some_iff.mp h
    exact .inl ⟨error, reports, hphase, hs, rfl⟩
  · rename_i hphase
    split at h
    · rename_i fate rest hdue
      cases h
      exact .inr (.inl ⟨fate, rest, hphase, hdue, rfl⟩)
    · rename_i hdue
      split at h
      · cases h
      · rename_i hclosed
        cases h
        exact .inr (.inr ⟨hphase, hdue, Bool.eq_false_iff.mpr hclosed, rfl⟩)

/-- Who can not look waits for a place in the channel, for the next envelope, or for nothing any more. -/
theorem look?_eq_none (h : look? handle bus state follower = none) :
    (∃ error, follower.phase = .stalled error ∧ follower.reports.send? error = none) ∨
      (follower.phase = .listening ∧ bus.due follower.subscription = []) ∨ follower.phase = .stopped := by
  unfold look? at h
  split at h
  · rename_i hphase
    exact .inr (.inr hphase)
  · rename_i error hphase
    exact .inl ⟨error, hphase, Option.map_eq_none_iff.mp h⟩
  · rename_i hphase
    split at h
    · cases h
    · rename_i hdue
      exact .inr (.inl ⟨hphase, hdue⟩)

/-- An error is put into the channel at once if there is a place for it. -/
theorem looks_report (error : Option ProjectionError) :
    Looks handle bus (state, follower.hold error) (state, follower.report error) := by
  cases error with
  | none => exact .done _
  | some error =>
    cases hs : follower.reports.send? error with
    | none =>
      simp only [report, hs]
      exact .done _
    | some reports =>
      have hlook : look? handle bus state (follower.hold (some error)) =
          some (state, follower.report (some error)) := by
        simp only [look?, hold, Phase.holding, report, hs, Option.map_some]
      exact .look hlook (.done _)

theorem looks_take {fate : Fate} {rest : List Fate} (hl : follower.phase = .listening)
    (hd : bus.due follower.subscription = fate :: rest) :
    Looks handle bus (state, follower) ((meet handle follower.component state fate).1,
      (follower.advance fate.size).report (meet handle follower.component state fate).2) :=
  .look (look?_listening hl hd) (looks_report _)

/-- Refused envelopes are passed one by one, and the others stay due. -/
theorem looks_refused {refused rest : List Envelope} (hl : follower.phase = .listening)
    (hk : bus.dropped ≤ follower.subscription.next)
    (h : bus.Owes follower.subscription (refused ++ rest))
    (hr : ∀ envelope ∈ refused, follower.subscription.filter.accepts envelope = false) :
    Looks handle bus (state, follower) (state, follower.advance refused.length) ∧
      bus.due (follower.advance refused.length).subscription =
        rest.map (Fate.ofEnvelope follower.subscription.filter) := by
  induction refused generalizing follower with
  | nil => exact ⟨.done _, Bus.due_of_kept h hk⟩
  | cons envelope refused ih =>
    obtain ⟨hfirst, hothers⟩ := List.forall_mem_cons.mp hr
    have hdue := Bus.due_of_kept h hk
    rw [List.cons_append, List.map_cons, Fate.ofEnvelope_refused hfirst] at hdue
    have htake : follower.take handle state (.refused envelope) = (state, follower.advance 1) := by
      unfold take hold meet Phase.holding
      simp only
      rw [← hl]
      rfl
    have hnext : bus.Owes (follower.advance 1).subscription (refused ++ rest) :=
      Bus.Owes.pass [envelope] h (Nat.le_add_right_of_le hk)
    have hmore : (follower.advance 1).advance refused.length = follower.advance (refused.length + 1) := by
      unfold advance
      simp only [Nat.add_assoc, Nat.add_comm 1]
    obtain ⟨hlooks, hrest⟩ := @ih (follower.advance 1) hl (Nat.le_add_right_of_le hk) hnext hothers
    rw [hmore] at hlooks hrest
    refine ⟨.look (look?_listening hl hdue) ?_, hrest⟩
    rw [htake]
    exact hlooks

theorem looks_lost (hl : follower.phase = .listening) (h : bus.Owes follower.subscription pending)
    (hlost : follower.subscription.next < bus.dropped) :
    Looks handle bus (state, follower) (state,
      { follower with subscription := { follower.subscription with next := bus.dropped } }.report
        (some (.lagged follower.component (bus.dropped - follower.subscription.next)))) := by
  have htake : Looks handle bus (state, follower) _ := looks_take hl (Bus.due_of_lost h hlost)
  unfold advance Fate.size at htake
  rw [Nat.add_sub_of_le (Nat.le_of_lt hlost)] at htake
  exact htake

/-- A step of a follower is a chain of looks. -/
theorem looks_step? (h : bus.Owes follower.subscription pending) {next : σ × Follower}
    (hs : step? handle bus state follower = some next) : Looks handle bus (state, follower) next := by
  unfold step? at hs
  split at hs
  · cases hs
  · rename_i error hphase
    have hlook : look? handle bus state follower = some next := by
      unfold look?
      rw [hphase]
      exact hs
    exact .look hlook (.done next)
  · rename_i hl
    by_cases hk : bus.dropped ≤ follower.subscription.next
    · obtain ⟨refused, rest, rfl, hrefused, hreceive⟩ := Bus.receive_kept h hk
      have hskip : Looks handle bus (state, follower) _ ∧ _ := looks_refused hl hk h hrefused
      obtain ⟨hlooks, hdue⟩ := hskip
      have hlistening : (follower.advance refused.length).phase = .listening := hl
      refine hlooks.trans ?_
      obtain ⟨envelope, others, rfl, accepted, hr⟩ | ⟨rfl, hr⟩ := hreceive
      · rw [List.map_cons, Fate.ofEnvelope_accepted accepted] at hdue
        rw [hr] at hs
        cases hs
        exact looks_take hlistening hdue
      · rw [hr] at hs
        cases ho : bus.isOpen with
        | true =>
          simp only [ho, if_true] at hs
          split at hs
          · cases hs
          · cases hs
            exact .done _
        | false =>
          simp only [ho, Bool.false_eq_true, if_false] at hs
          cases hs
          have hstop : look? handle bus state (follower.advance refused.length) =
              some (state, (follower.advance refused.length).stop) := by
            simp [look?, hlistening, hdue, ho]
          exact .look hstop (.done _)
    · have hlost := Nat.lt_of_not_le hk
      rw [Bus.receive, if_pos hlost] at hs
      cases hs
      exact looks_lost hl h hlost

end Looks

end Follower

end Wayfinding
