import Wayfinding.Proofs.Front

namespace Wayfinding

/-- What can be fetched comes back from its bytes, if a machine can hold it. -/
theorem Repository.ofBytes_of_fetch {repository : Repository} {id : Identity} {nav : Navigation}
    (h : repository.fetch id = .ok nav) (hf : nav.Fits) : Navigation.ofBytes nav.toBytes = .ok nav := by
  obtain ⟨_, rfl⟩ := fetch_eq_ok.mp h
  have hb := Navigation.ofBytes_toBytes hf []
  rw [List.append_nil] at hb
  exact hb

namespace Cache

variable {cache : Cache} {id other : Identity}

theorem contains_pending_invalidate (cache : Cache) (id other : Identity) :
    (cache.invalidate id).pending.contains other =
      if other = id then true else cache.pending.contains other := by
  simp only [invalidate, Table.contains, Table.get?_insert]
  split <;> rfl

theorem epochs_invalidate (cache : Cache) (id other : Identity) :
    (cache.invalidate id).epochs.get? other =
      if other = id then some cache.generation else cache.epochs.get? other :=
  Table.get?_insert ..

/-- All generations that were given out are below the next one. -/
def Dated (cache : Cache) (epoch : Option Nat) : Prop :=
  ∀ generation, epoch = some generation → generation < cache.generation

theorem Dated.invalidate {epoch : Option Nat} (h : cache.Dated epoch) (id : Identity) :
    (cache.invalidate id).Dated epoch := fun generation he => Nat.lt_succ_of_lt (h generation he)

theorem Dated.ne {epoch : Option Nat} (h : cache.Dated epoch) : some cache.generation ≠ epoch := by
  intro he
  exact Nat.lt_irrefl _ (h cache.generation he.symm)

end Cache

namespace Front

/-- An event of the navigation has still to reach the cache. -/
def Due (front : Front) (id : Identity) : Prop := ∃ envelope ∈ front.outbox ++ front.queue, envelope.id = id

/-- What the repository once answered is what it still answers, unless an event says otherwise. -/
def Current (front : Front) (id : Identity) (fetched : Except NavigationError Navigation) : Prop :=
  front.repository.fetch id = fetched ∨ front.Due id

/-- The cache listens to the bus and hears every event. -/
structure Wired (front : Front) : Prop where
  isOpen : front.bus.isOpen = true
  heard : 0 < front.bus.subscribers
  listening : front.follower.phase = .listening
  filter : front.follower.subscription.filter = .all
  bounded : front.follower.subscription.next ≤ front.bus.published
  accepted : ∀ envelope ∈ front.outbox ++ front.queue, EventFilter.all.accepts envelope = true

/-- An entry decodes to what is current, or its timer runs; what a load was answered is current, or the load
is too old to be kept. -/
structure Coherent (front : Front) : Prop where
  calm : front.Calm
  wired : front.Wired
  epochs : ∀ id, front.cache.Dated (front.cache.epochs.get? id)
  begun : ∀ ticket loading, front.loads.get? ticket = some loading →
    front.cache.Dated loading.load.epoch
  entries : ∀ id bytes, front.cache.entries.get? id = some bytes →
    ∃ nav, Navigation.ofBytes bytes = .ok nav ∧
      (front.Current id (.ok nav) ∨ front.cache.pending.contains id = true)
  answered : ∀ ticket load fetched, front.loads.get? ticket = some ⟨load, some fetched⟩ →
    (∀ nav, fetched = .ok nav → Navigation.ofBytes nav.toBytes = .ok nav) ∧
      (front.Current load.id fetched ∨ front.cache.epochs.get? load.id ≠ load.epoch)

variable {front : Front}

theorem coherent_start {repository : Repository} {bus : Bus} {errorBuffer : Nat} (ho : bus.isOpen = true)
    (hc : (start repository bus errorBuffer).Calm) : (start repository bus errorBuffer).Coherent where
  calm := hc
  wired :=
    { isOpen := ho
      heard := Nat.zero_lt_succ _
      listening := rfl
      filter := rfl
      bounded := Nat.le_refl _
      accepted := by
        intro envelope he
        have hq : (start repository bus errorBuffer).queue = [] := by
          simp [queue, start, Bus.waiting, Bus.subscribe, Bus.published, Follower.new]
        rw [hq] at he
        cases he }
  epochs _ _ he := nomatch he
  begun _ _ hl := nomatch hl
  entries _ _ he := nomatch he
  answered _ _ _ hl := nomatch hl

/-- Turns that leave the cache alone, and after which what was current is current still. -/
theorem Coherent.passed (h : front.Coherent) {repository : Repository} {bus : Bus}
    {outbox : List Envelope} {follower : Follower}
    (hc : Calm ⟨repository, bus, outbox, follower, front.cache, front.loads⟩)
    (hw : Wired ⟨repository, bus, outbox, follower, front.cache, front.loads⟩)
    (hcurrent : ∀ id fetched, front.Current id fetched →
      Current ⟨repository, bus, outbox, follower, front.cache, front.loads⟩ id fetched) :
    Coherent ⟨repository, bus, outbox, follower, front.cache, front.loads⟩ where
  calm := hc
  wired := hw
  epochs := h.epochs
  begun := h.begun
  entries id bytes he := by
    obtain ⟨nav, hd, hp⟩ := h.entries id bytes he
    exact ⟨nav, hd, hp.imp_left (hcurrent id _)⟩
  answered ticket load fetched hl := by
    obtain ⟨hd, hp⟩ := h.answered ticket load fetched hl
    exact ⟨hd, hp.imp_left (hcurrent load.id fetched)⟩

/-- An invalidation: the event of this one navigation may have been used up for it. -/
theorem Coherent.invalidated (h : front.Coherent) (id : Identity) {follower : Follower}
    (hc : Calm ⟨front.repository, front.bus, front.outbox, follower, front.cache.invalidate id, front.loads⟩)
    (hw : Wired ⟨front.repository, front.bus, front.outbox, follower, front.cache.invalidate id, front.loads⟩)
    (hdue : ∀ other, other ≠ id → front.Due other →
      Due ⟨front.repository, front.bus, front.outbox, follower, front.cache.invalidate id, front.loads⟩
        other) :
    Coherent ⟨front.repository, front.bus, front.outbox, follower, front.cache.invalidate id,
      front.loads⟩ where
  calm := hc
  wired := hw
  epochs other := by
    simp only [Cache.epochs_invalidate]
    split
    · intro generation he
      cases he
      exact Nat.lt_succ_self _
    · exact (h.epochs other).invalidate id
  begun ticket loading hl := (h.begun ticket loading hl).invalidate id
  entries other bytes he := by
    obtain ⟨nav, hd, hp⟩ := h.entries other bytes he
    refine ⟨nav, hd, ?_⟩
    simp only [Cache.contains_pending_invalidate]
    by_cases ho : other = id
    · exact .inr (if_pos ho)
    · rw [if_neg ho]
      exact hp.imp_left fun hp => hp.imp_right (hdue other ho)
  answered ticket load fetched hl := by
    obtain ⟨hd, hp⟩ := h.answered ticket load fetched hl
    refine ⟨hd, ?_⟩
    simp only [Cache.epochs_invalidate]
    by_cases ho : load.id = id
    · rw [if_pos ho]
      exact .inr (h.begun ticket _ hl).ne
    · rw [if_neg ho]
      exact hp.imp_left fun hp => hp.imp_right (hdue load.id ho)

theorem mem_stored {outbox queue stored : List Envelope} {envelope : Envelope} :
    envelope ∈ (outbox ++ stored) ++ queue ↔ envelope ∈ outbox ++ queue ∨ envelope ∈ stored := by
  simp only [List.mem_append]
  exact or_right_comm

theorem Wired.append (h : front.Wired) (nav : Navigation) (now : Timestamp) :
    (front.step (.append nav now)).Wired :=
  { h with accepted := fun envelope he =>
      (mem_stored.mp he).elim (h.accepted envelope) fun hs => (Repository.mem_appended hs).2 }

theorem Due.append {id : Identity} (h : front.Due id) (nav : Navigation) (now : Timestamp) :
    (front.step (.append nav now)).Due id := by
  obtain ⟨envelope, he, hid⟩ := h
  exact ⟨envelope, mem_stored.mpr (.inl he), hid⟩

theorem Coherent.append (h : front.Coherent) (nav : Navigation) (now : Timestamp)
    (hc : (front.step (.append nav now)).Calm) : (front.step (.append nav now)).Coherent := by
  refine h.passed hc (h.wired.append nav now) ?_
  intro id fetched hp
  rcases Repository.fetch_save front.repository now nav id with hs | ⟨envelope, he, hid⟩
  · exact hp.imp hs.trans fun hd => hd.append nav now
  · exact .inr ⟨envelope, mem_stored.mpr (.inr he), hid⟩

theorem mem_published {outbox queue : List Envelope} {place : Nat} {published : Envelope}
    (ho : outbox[place]? = some published) (envelope : Envelope) :
    envelope ∈ outbox.eraseIdx place ++ (queue ++ [published]) ↔ envelope ∈ outbox ++ queue := by
  constructor
  · intro he
    rcases List.mem_append.mp he with he | he
    · exact List.mem_append_left _ (List.mem_of_mem_eraseIdx he)
    · rcases List.mem_append.mp he with he | he
      · exact List.mem_append_right _ he
      · cases List.mem_singleton.mp he
        exact List.mem_append_left _ (List.mem_of_getElem? ho)
  · intro he
    rcases List.mem_append.mp he with he | he
    · obtain ⟨found, hf⟩ := List.mem_iff_getElem?.mp he
      by_cases hs : found = place
      · subst hs
        rw [hf] at ho
        cases ho
        simp
      · exact List.mem_append_left _ (List.mem_eraseIdx_iff_getElem?.mpr ⟨found, hs, hf⟩)
    · exact List.mem_append_right _ (List.mem_append_left _ he)

theorem mem_step_publish (hw : front.Wired) {place : Nat} (hc : (front.step (.publish place)).Calm)
    (envelope : Envelope) :
    envelope ∈ (front.step (.publish place)).outbox ++ (front.step (.publish place)).queue ↔
      envelope ∈ front.outbox ++ front.queue := by
  simp only [step] at hc ⊢
  cases ho : front.outbox[place]? with
  | none => rfl
  | some published =>
    rw [ho] at hc
    have hq : (front.bus.publish published).2.waiting front.follower.subscription =
        front.queue ++ [published] := Bus.waiting_publish hw.heard hw.bounded hc.caughtUp
    simp only [queue, hq]
    exact mem_published ho envelope

theorem Due.publish {id : Identity} (h : front.Due id) (hw : front.Wired) {place : Nat}
    (hc : (front.step (.publish place)).Calm) : (front.step (.publish place)).Due id := by
  obtain ⟨envelope, he, hid⟩ := h
  exact ⟨envelope, (mem_step_publish hw hc envelope).mpr he, hid⟩

theorem Wired.publish (h : front.Wired) {place : Nat} (hc : (front.step (.publish place)).Calm) :
    (front.step (.publish place)).Wired := by
  have hm := mem_step_publish h hc
  simp only [step] at hm ⊢
  cases ho : front.outbox[place]? with
  | none => exact h
  | some published =>
    rw [ho] at hm
    refine ⟨(Bus.isOpen_publish _ _).trans h.isOpen, ?_, h.listening, h.filter, ?_, ?_⟩
    · rw [Bus.subscribers_publish]
      exact h.heard
    · rw [Bus.published_publish _ _ h.heard]
      exact Nat.le_succ_of_le h.bounded
    · exact fun envelope he => h.accepted envelope ((hm envelope).mp he)

theorem Coherent.publish (h : front.Coherent) (place : Nat)
    (hc : (front.step (.publish place)).Calm) : (front.step (.publish place)).Coherent := by
  have hw := h.wired.publish hc
  have hdue := fun (id : Identity) (hd : front.Due id) => hd.publish h.wired hc
  simp only [step] at hc hw hdue ⊢
  cases ho : front.outbox[place]? with
  | none => exact h
  | some published =>
    rw [ho] at hc hw hdue
    exact h.passed hc hw fun id _ hp => hp.imp_right (hdue id)

/-- The cache takes the first envelope of the queue, if there is one, and invalidates its navigation. -/
theorem step_deliver (hc : front.Calm) (hw : front.Wired) :
    ∃ next, next ≤ front.bus.published ∧
      let follower := { front.follower with subscription := { front.follower.subscription with next } }
      (front.queue = [] ∧ front.bus.waiting follower.subscription = [] ∧
          front.step .deliver = { front with follower } ∨
        ∃ envelope, front.queue = envelope :: front.bus.waiting follower.subscription ∧
          front.step .deliver =
            { front with cache := front.cache.invalidate envelope.id, follower }) := by
  cases hq : front.queue with
  | nil =>
    obtain ⟨hr, hn⟩ := Bus.receive_nil hw.isOpen hc.caughtUp hq
    refine ⟨front.bus.published, Nat.le_refl _, .inl ⟨rfl, hn, ?_⟩⟩
    simp only [step, Follower.step?, hw.listening, hr]
    split
    · rename_i hs
      split at hs
      · cases hs
      · cases hs
        rfl
    · rename_i hs
      split at hs
      · rename_i he
        rw [he, ← hw.listening]
      · cases hs
  | cons envelope rest =>
    have ha : front.follower.subscription.filter.accepts envelope = true := by
      rw [hw.filter]
      refine hw.accepted envelope (List.mem_append_right _ ?_)
      rw [hq]
      exact List.mem_cons_self
    obtain ⟨hr, hn⟩ := Bus.receive_cons hc.caughtUp hq ha
    refine ⟨front.bus.published - rest.length, Nat.sub_le _ _, .inr ⟨envelope, ?_, ?_⟩⟩
    · rw [hn]
    · simp only [step, Follower.step?, hw.listening, hr, Service.invalidateFor, Follower.report]

/-- An envelope that was taken was due for its own navigation only. -/
theorem due_taken {outbox queue rest : List Envelope} {envelope : Envelope} {id : Identity}
    (hq : queue = envelope :: rest) (hne : id ≠ envelope.id)
    (h : ∃ found ∈ outbox ++ queue, found.id = id) : ∃ found ∈ outbox ++ rest, found.id = id := by
  obtain ⟨found, hf, hid⟩ := h
  refine ⟨found, ?_, hid⟩
  rw [hq] at hf
  rcases List.mem_append.mp hf with hf | hf
  · exact List.mem_append_left _ hf
  · rcases List.mem_cons.mp hf with rfl | hf
    · exact absurd hid.symm hne
    · exact List.mem_append_right _ hf

theorem Coherent.deliver (h : front.Coherent) (hc : (front.step .deliver).Calm) :
    (front.step .deliver).Coherent := by
  obtain ⟨next, hb, ⟨hq, hn, hs⟩ | ⟨envelope, hq, hs⟩⟩ := step_deliver h.calm h.wired
  · rw [hs] at hc ⊢
    refine h.passed hc { h.wired with bounded := hb, accepted := ?_ } ?_
    · intro envelope he
      refine h.wired.accepted envelope ?_
      simp only [queue, hn] at he
      rw [hq]
      exact he
    · intro id fetched hp
      simp only [Current, Due, queue, hn] at hp ⊢
      rwa [← hq]
  · rw [hs] at hc ⊢
    refine h.invalidated envelope.id hc { h.wired with bounded := hb, accepted := ?_ } ?_
    · intro other ho
      refine h.wired.accepted other ?_
      rw [hq]
      rcases List.mem_append.mp ho with ho | ho
      · exact List.mem_append_left _ ho
      · exact List.mem_append_right _ (List.mem_cons_of_mem _ ho)
    · exact fun other hne hd => due_taken hq hne hd

theorem Coherent.invalidate (h : front.Coherent) (id : Identity) :
    (front.step (.invalidate id)).Coherent :=
  h.invalidated id ⟨h.calm.caughtUp, h.calm.fits⟩ { h.wired with } fun _ _ hd => hd

/-- Turns that touch only the cache and its loads. -/
theorem Coherent.moved (h : front.Coherent) {cache : Cache} {loads : Table Nat Loading}
    (epochs : ∀ id, cache.Dated (cache.epochs.get? id))
    (begun : ∀ ticket loading, loads.get? ticket = some loading → cache.Dated loading.load.epoch)
    (entries : ∀ id bytes, cache.entries.get? id = some bytes →
      ∃ nav, Navigation.ofBytes bytes = .ok nav ∧
        (front.Current id (.ok nav) ∨ cache.pending.contains id = true))
    (answered : ∀ ticket load fetched, loads.get? ticket = some ⟨load, some fetched⟩ →
      (∀ nav, fetched = .ok nav → Navigation.ofBytes nav.toBytes = .ok nav) ∧
        (front.Current load.id fetched ∨ cache.epochs.get? load.id ≠ load.epoch)) :
    Coherent { front with cache := cache, loads := loads } where
  calm := ⟨h.calm.caughtUp, h.calm.fits⟩
  wired := { h.wired with }
  epochs := epochs
  begun := begun
  entries := entries
  answered := answered

/-- Entries can be decoded, so nothing is ever dropped when a fetch begins. -/
theorem Coherent.read_eq (h : front.Coherent) (id : Identity) :
    (∃ nav, front.cache.read id = (.hit nav, front.cache) ∧
        (front.Current id (.ok nav) ∨ front.cache.pending.contains id = true)) ∨
      front.cache.read id = (.miss ⟨id, front.cache.epochs.get? id⟩, front.cache) := by
  unfold Cache.read
  cases he : front.cache.entries.get? id with
  | none => exact .inr rfl
  | some bytes =>
    obtain ⟨nav, hd, hp⟩ := h.entries id bytes he
    simp only [hd]
    exact .inl ⟨nav, rfl, hp⟩

theorem Coherent.begin (h : front.Coherent) (ticket : Nat) (id : Identity) :
    (front.step (.begin ticket id)).Coherent := by
  unfold step
  rcases h.read_eq id with ⟨_, hr, _⟩ | hr
  · simp only [hr]
    exact h
  · simp only [hr]
    refine h.moved h.epochs ?_ h.entries ?_
    · intro other loading hl
      rw [Table.get?_insert] at hl
      split at hl
      · cases hl
        exact h.epochs id
      · exact h.begun other loading hl
    · intro other load fetched hl
      rw [Table.get?_insert] at hl
      split at hl
      · cases hl
      · exact h.answered other load fetched hl

theorem Coherent.answer (h : front.Coherent) (ticket : Nat) :
    (front.step (.answer ticket)).Coherent := by
  simp only [step]
  split
  · rename_i load hload
    refine h.moved h.epochs ?_ h.entries ?_
    · intro other loading hl
      rw [Table.get?_insert] at hl
      split at hl
      · cases hl
        exact h.begun ticket ⟨load, none⟩ hload
      · exact h.begun other loading hl
    · intro other found fetched hl
      rw [Table.get?_insert] at hl
      split at hl
      · cases hl
        refine ⟨?_, .inl (.inl rfl)⟩
        intro nav hf
        exact Repository.ofBytes_of_fetch hf (h.calm.fits _ _ hf)
      · exact h.answered other found fetched hl
  · exact h

/-- What is kept of a load is current, since the guards let nothing else pass. -/
theorem Coherent.finish (h : front.Coherent) (ticket : Nat) :
    (front.step (.finish ticket)).Coherent := by
  have hl : ∀ other loading, (front.loads.erase ticket).get? other = some loading →
      front.loads.get? other = some loading := by
    intro other loading hl
    rw [Table.get?_erase] at hl
    split at hl
    · cases hl
    · exact hl
  have hbegun := fun other loading hg => h.begun other loading (hl other loading hg)
  have hanswered := fun other load fetched hg => h.answered other load fetched (hl other _ hg)
  simp only [step]
  split
  · rename_i load fetched hload
    obtain ⟨hd, hp⟩ := h.answered ticket load fetched hload
    cases fetched with
    | error error => exact h.moved h.epochs hbegun h.entries hanswered
    | ok nav =>
      simp only [Cache.complete, Cache.store]
      split
      · rename_i hg
        refine h.moved h.epochs hbegun ?_ hanswered
        intro id bytes he
        rw [Table.get?_insert] at he
        split at he
        · rename_i hid
          subst hid
          cases he
          have hcurrent : front.Current load.id (.ok nav) := hp.resolve_right fun hn => hn hg.1
          exact ⟨nav, hd nav rfl, .inl hcurrent⟩
        · exact h.entries id bytes he
      · exact h.moved h.epochs hbegun h.entries hanswered
  · exact h

/-- The entry goes together with its timer. -/
theorem Coherent.timeOut (h : front.Coherent) (id : Identity) (generation : Nat) :
    (front.step (.timeOut id generation)).Coherent := by
  simp only [step, Cache.expire]
  split
  · refine h.moved h.epochs h.begun ?_ h.answered
    intro other bytes he
    rw [Table.get?_erase] at he
    split at he
    · cases he
    · rename_i hne
      rw [Table.contains, Table.get?_erase, if_neg hne]
      exact h.entries other bytes he
  · exact h

theorem Coherent.step (h : front.Coherent) {turn : Turn} (hk : turn.deletes = false)
    (hc : (front.step turn).Calm) : (front.step turn).Coherent := by
  cases turn with
  | append nav now => exact h.append nav now hc
  | publish place => exact h.publish place hc
  | delete nav => cases hk
  | deliver => exact h.deliver hc
  | invalidate id => exact h.invalidate id
  | begin ticket id => exact h.begin ticket id
  | answer ticket => exact h.answer ticket
  | finish ticket => exact h.finish ticket
  | timeOut id generation => exact h.timeOut id generation

theorem Reached.coherent (h : Reached front) : front.Coherent := by
  induction h with
  | start repository bus errorBuffer ho hc => exact coherent_start ho hc
  | step _ turn hk hc ih => exact ih.step hk hc

/-- Whatever turns came before, an entry that is not what the repository holds has an event still to come or a
timer running. Without either a fetch through the cache has the outcome of one from the repository. -/
theorem entries_coherent (h : Reached front) :
    (∀ id bytes, front.cache.entries.get? id = some bytes → ∃ nav, Navigation.ofBytes bytes = .ok nav) ∧
    (∀ id, front.Stale id → (∃ envelope ∈ front.outbox ++ front.queue, envelope.id = id) ∨
      front.cache.pending.contains id = true) ∧
    (front.outbox = [] → ∀ id, front.Stale id → (∃ envelope ∈ front.queue, envelope.id = id) ∨
      front.cache.pending.contains id = true) ∧
    ∀ id, (¬∃ envelope ∈ front.outbox ++ front.queue, envelope.id = id) →
      front.cache.pending.contains id = false →
      (front.cache.fetch front.repository id).1 = Cache.outcome id (front.repository.fetch id) := by
  have hcoherent := h.coherent
  have hstale : ∀ id, front.Stale id → front.Due id ∨ front.cache.pending.contains id = true := by
    rintro id ⟨bytes, he, hne⟩
    obtain ⟨nav, hd, (hf | hdue) | hp⟩ := hcoherent.entries id bytes he
    · exact absurd (hd.trans hf.symm) hne
    · exact .inl hdue
    · exact .inr hp
  refine ⟨?_, hstale, ?_, ?_⟩
  · intro id bytes he
    obtain ⟨nav, hd, _⟩ := hcoherent.entries id bytes he
    exact ⟨nav, hd⟩
  · intro ho id hs
    have hdue := hstale id hs
    rw [Due, ho] at hdue
    exact hdue
  · intro id hn hp
    rcases hcoherent.read_eq id with ⟨nav, hr, (hf | hdue) | hpending⟩ | hr
    · rw [Cache.fetch, hr, hf]
      rfl
    · exact absurd hdue hn
    · rw [hp] at hpending
      cases hpending
    · rw [Cache.fetch, hr]
      exact Cache.complete_outcome ..

/-- A cache in front of one stored navigation. -/
def overtakenOrigin (id : Identity) : Front :=
  start ⟨Table.empty.insert id [.ofEvent id 1 ⟨0, 0⟩ (.created "main")], []⟩ ⟨4, 0, [], 0, true⟩ 1

def overtakingChange (id : Identity) : Navigation :=
  (Navigation.ofEvents id [.created "main"]).record (.itemsAdded [.new "foo" .label] 0 "")

/-- A save overtakes a load that was answered already, and the load ends before the event arrives. -/
def overtaken (id : Identity) : Front :=
  [.begin 0 id, .answer 0, .append (overtakingChange id) ⟨1, 0⟩, .publish 0, .finish 0].foldl step
    (overtakenOrigin id)

theorem overtaken_entry_awaits_event :
    Reached (overtaken (.ofSeed 1)) ∧ (overtaken (.ofSeed 1)).Stale (.ofSeed 1) ∧
      ((∃ envelope ∈ (overtaken (.ofSeed 1)).queue, envelope.id = .ofSeed 1) ∨
        (overtaken (.ofSeed 1)).cache.pending.contains (.ofSeed 1) = true) := by
  have h0 : Reached (overtakenOrigin (.ofSeed 1)) := .start _ _ _ rfl (by decide +kernel)
  have h1 := h0.step (.begin 0 (.ofSeed 1)) rfl (by decide +kernel)
  have h2 := h1.step (.answer 0) rfl (by decide +kernel)
  have h3 := h2.step (.append (overtakingChange (.ofSeed 1)) ⟨1, 0⟩) rfl (by decide +kernel)
  have h4 := h3.step (.publish 0) rfl (by decide +kernel)
  have h5 : Reached (overtaken (.ofSeed 1)) := h4.step (.finish 0) rfl (by decide +kernel)
  have hs : (overtaken (.ofSeed 1)).Stale (.ofSeed 1) := by
    refine ⟨(Navigation.ofEvents (.ofSeed 1) [.created "main"]).toBytes, by decide +kernel, ?_⟩
    intro he
    have ho := congrArg Except.toOption he
    revert ho
    decide +kernel
  exact ⟨h5, hs, (entries_coherent h5).2.2.1 (by decide +kernel) (.ofSeed 1) hs⟩

end Front

end Wayfinding
