import Wayfinding.Proofs.Shadow

namespace Wayfinding

namespace Front

/-- The turn is a save that stores something of a navigation. -/
def stores (front : Front) (id : Identity) : Turn → Bool
  | .append nav now => nav.id = id && !(front.repository.save now nav).appended.isEmpty
  | _ => false

/-- The turn has the cache hear of a navigation: it takes an event of it, or is asked to invalidate it. -/
def tells (front : Front) (id : Identity) : Turn → Bool
  | .deliver => front.queue.head?.any fun envelope => envelope.id = id
  | .invalidate other => other = id
  | _ => false

variable {front : Front} {id : Identity} {turns : List Turn} {held : Repository} {loads : Table Nat Loading}

/-- A deletion was not taken back, and a copy from before it would be the one that was held last. -/
structure Erased (front : Front) (id : Identity) (last : Option Navigation) : Prop where
  gone : front.repository.fetch id = .error (.notFound id)
  shadow : ∃ held loads, Shadow front held loads ∧ (held.fetch id).toOption = last

variable {turn : Turn} {last : Option Navigation}

theorem fetch_step (hu : front.stores id turn = false) :
    (front.step turn).repository.fetch id = front.repository.fetch id ∨
      (front.step turn).repository.fetch id = .error (.notFound id) := by
  cases turn with
  | append nav now =>
    left
    refine (Repository.fetch_save front.repository now nav id).resolve_right ?_
    rintro ⟨envelope, he, hid⟩
    have hid := (Repository.mem_appended he).1.symm.trans hid
    simp [stores, hid, List.ne_nil_of_mem he] at hu
  | delete nav =>
    simp only [step]
    cases hd : front.repository.delete nav with
    | error error => exact .inl rfl
    | ok left =>
      simp only [Repository.fetch_delete hd]
      split
      · exact .inr rfl
      · exact .inl rfl
  | invalidate | timeOut => exact .inl rfl
  | publish | deliver | begin | answer | finish =>
    simp only [step]
    split <;> exact .inl rfl

theorem Erased.step (h : Erased front id last) (hc : (front.step turn).Calm)
    (hu : front.stores id turn = false) : Erased (front.step turn) id last := by
  have hgone : (front.step turn).repository.fetch id = .error (.notFound id) := by
    rcases front.fetch_step hu with hs | hs
    · rw [hs, h.gone]
    · exact hs
  obtain ⟨held, loads, hs, hl⟩ := h.shadow
  obtain ⟨held', loads', hs', hr⟩ := hs.step turn hc
  refine ⟨hgone, held', loads', hs', ?_⟩
  rw [hr id, hgone, ← hl]
  rfl

/-- Nothing of a navigation can come into the cache, and an entry of it goes with its timer. -/
structure Barred (cache : Cache) (loads : Table Nat Loading) (id : Identity) : Prop where
  loads : ∀ ticket load nav, loads.get? ticket = some ⟨load, some (.ok nav)⟩ → load.id = id →
    cache.epochs.get? id ≠ load.epoch
  entry : cache.contains id = true → cache.pending.contains id = true

/-- The cache has an entry of the navigation and no timer runs for it. -/
def Settled (cache : Cache) (id : Identity) : Prop :=
  cache.contains id = true ∧ cache.pending.contains id = false

section Cache

variable {cache : Cache} {ticket : Nat} {load : Cache.Load}

/-- What an invalidation of the navigation itself leaves is barred, and what was barred stays so. -/
theorem barred_invalidate {other : Identity}
    (dated : ∀ ticket load nav, loads.get? ticket = some ⟨load, some (.ok nav)⟩ → cache.Dated load.epoch)
    (h : other = id ∨ Barred cache loads id) : Barred (cache.invalidate other) loads id where
  loads ticket load nav hl hid := by
    rw [Cache.epochs_invalidate]
    split
    · exact (dated ticket load nav hl).ne
    · rename_i ho
      exact (h.resolve_left (Ne.symm ho)).loads ticket load nav hl hid
  entry he := by
    rw [Cache.contains_pending_invalidate]
    split
    · rfl
    · rename_i ho
      exact (h.resolve_left (Ne.symm ho)).entry he

theorem Barred.insert (h : Barred cache loads id) {answer : Option (Except NavigationError Navigation)}
    (hn : ∀ nav, load.id = id → answer ≠ some (.ok nav)) :
    Barred cache (loads.insert ticket ⟨load, answer⟩) id where
  loads place found nav hl hid := by
    rw [Table.get?_insert] at hl
    split at hl
    · obtain ⟨rfl, ha⟩ := Loading.mk.inj (Option.some.inj hl)
      exact absurd ha (hn nav hid)
    · exact h.loads place found nav hl hid
  entry := h.entry

theorem Barred.erase (h : Barred cache loads id) : Barred cache (loads.erase ticket) id where
  loads place found nav hl hid := by
    rw [Table.get?_erase] at hl
    split at hl
    · cases hl
    · exact h.loads place found nav hl hid
  entry := h.entry

/-- The guard of the cache lets no load of the navigation in. -/
theorem Barred.complete (h : Barred cache loads id) {fetched : Except NavigationError Navigation}
    (hl : loads.get? ticket = some ⟨load, some fetched⟩) : Barred (cache.complete load fetched).2 loads id := by
  cases fetched with
  | error error => exact h
  | ok nav =>
    simp only [Cache.complete, Cache.store]
    split
    · rename_i hg
      refine ⟨h.loads, fun he => ?_⟩
      by_cases hid : id = load.id
      · rw [← hid] at hg
        exact absurd hg.1 (h.loads ticket load nav hl hid.symm)
      · simp only [Cache.contains, Table.contains, Table.get?_insert, if_neg hid] at he
        exact h.entry he
    · exact h

theorem Barred.expire (h : Barred cache loads id) (other : Identity) (generation : Nat) :
    Barred (cache.expire other generation) loads id := by
  unfold Cache.expire
  split
  · refine ⟨h.loads, fun he => ?_⟩
    simp only [Cache.contains, Table.contains, Table.get?_erase] at he ⊢
    split
    · rename_i ho
      simp [ho] at he
    · rename_i ho
      rw [if_neg ho] at he
      exact h.entry he
  · exact h

theorem Settled.invalidate (h : Settled cache id) {other : Identity} (hne : id ≠ other) :
    Settled (cache.invalidate other) id := by
  refine ⟨h.1, ?_⟩
  rw [Cache.contains_pending_invalidate, if_neg hne]
  exact h.2

theorem Settled.complete (h : Settled cache id) (load : Cache.Load)
    (fetched : Except NavigationError Navigation) : Settled (cache.complete load fetched).2 id := by
  cases fetched with
  | error error => exact h
  | ok nav =>
    simp only [Cache.complete, Cache.store]
    split
    · refine ⟨?_, h.2⟩
      simp only [Cache.contains, Table.contains, Table.get?_insert]
      split
      · rfl
      · exact h.1
    · exact h

theorem Settled.expire (h : Settled cache id) (other : Identity) (generation : Nat) :
    Settled (cache.expire other generation) id := by
  unfold Cache.expire
  split
  · rename_i hp
    have hne : id ≠ other := by
      rintro rfl
      have hsome := h.2
      rw [Table.contains, hp] at hsome
      cases hsome
    simp only [Settled, Cache.contains, Table.contains, Table.get?_erase, if_neg hne]
    exact h
  · exact h

end Cache

theorem barred_of_tells (h : Shadow front held loads) (ht : front.tells id turn = true) :
    Barred (front.step turn).cache (front.step turn).loads id := by
  cases turn with
  | deliver =>
    obtain ⟨next, _, ⟨hq, _, _⟩ | ⟨envelope, hq, hs⟩⟩ := step_deliver h.calm h.wired
    · simp [tells, hq] at ht
    · rw [hs]
      exact barred_invalidate h.dated (.inl (by simpa [tells, hq] using ht))
  | invalidate other => exact barred_invalidate h.dated (.inl (by simpa [tells] using ht))
  | append | publish | delete | begin | answer | finish | timeOut => cases ht

theorem Barred.step (h : Barred front.cache front.loads id) (hs : Shadow front held loads)
    (hg : front.repository.fetch id = .error (.notFound id)) :
    Barred (front.step turn).cache (front.step turn).loads id := by
  cases turn with
  | append nav now => exact h
  | publish | delete =>
    simp only [Front.step]
    split <;> exact h
  | deliver =>
    obtain ⟨next, _, ⟨_, _, hd⟩ | ⟨envelope, _, hd⟩⟩ := step_deliver hs.calm hs.wired
    · rw [hd]
      exact h
    · rw [hd]
      exact barred_invalidate hs.dated (.inr h)
  | invalidate other => exact barred_invalidate hs.dated (.inr h)
  | begin ticket other =>
    rcases hs.coherent.read_eq other with ⟨nav, hr, _⟩ | hr
    · simp only [Front.step, hr]
      exact h
    · simp only [Front.step, hr]
      exact h.insert fun nav _ ha => by cases ha
  | answer ticket =>
    simp only [Front.step]
    split
    · refine h.insert fun nav hid ha => ?_
      rw [hid, hg] at ha
      cases ha
    · exact h
  | finish ticket =>
    simp only [Front.step]
    split
    · rename_i load fetched hload
      exact (h.complete hload).erase
    · exact h
  | timeOut other generation => exact h.expire other generation

/-- Without a word to the cache a settled entry stays. -/
theorem Settled.step (h : Settled front.cache id) (hs : Shadow front held loads)
    (ht : front.tells id turn = false) : Settled (front.step turn).cache id := by
  cases turn with
  | append nav now => exact h
  | publish | delete | answer =>
    simp only [Front.step]
    split <;> exact h
  | deliver =>
    obtain ⟨next, _, ⟨_, _, hd⟩ | ⟨envelope, hq, hd⟩⟩ := step_deliver hs.calm hs.wired
    · rw [hd]
      exact h
    · rw [hd]
      refine h.invalidate ?_
      rintro rfl
      simp [tells, hq] at ht
  | invalidate other =>
    refine h.invalidate ?_
    rintro rfl
    simp [tells] at ht
  | begin ticket other =>
    rcases hs.coherent.read_eq other with ⟨nav, hr, _⟩ | hr
    · simp only [Front.step, hr]
      exact h
    · simp only [Front.step, hr]
      exact h
  | finish ticket =>
    simp only [Front.step]
    split
    · exact h.complete _ _
    · exact h
  | timeOut other generation => exact h.expire other generation

/-- What is due stays due until the cache hears of it. -/
theorem Due.step (h : front.Due id) (hs : Shadow front held loads) (hc : (front.step turn).Calm)
    (ht : front.tells id turn = false) : (front.step turn).Due id := by
  cases turn with
  | append nav now => exact h.append nav now
  | publish place => exact h.publish hs.wired hc
  | deliver =>
    obtain ⟨next, _, ⟨hq, hn, hd⟩ | ⟨envelope, hq, hd⟩⟩ := step_deliver hs.calm hs.wired
    · rw [hd]
      rw [Due, hq] at h
      simp only [Due, queue, hn]
      exact h
    · rw [hd]
      refine due_taken hq ?_ h
      rintro rfl
      simp [tells, hq] at ht
  | invalidate | timeOut => exact h
  | delete | begin | answer | finish =>
    simp only [Front.step]
    split <;> exact h

/-- Without an entry there is nothing to fetch, and an entry is the copy that was held last. -/
theorem Erased.fetch_eq (h : Erased front id last) (hd : ¬front.Due id)
    (hp : front.cache.pending.contains id = false) :
    front.cache.contains id = false ∧
        (front.cache.fetch front.repository id).1 = Cache.outcome id (.error (.notFound id)) ∨
      front.cache.contains id = true ∧
        ∃ copy, last = some copy ∧ (front.cache.fetch front.repository id).1 = .ok copy := by
  obtain ⟨held, loads, hs, hl⟩ := h.shadow
  cases he : front.cache.entries.get? id with
  | none =>
    have hread : front.cache.read id = (.miss ⟨id, front.cache.epochs.get? id⟩, front.cache) := by
      simp [Cache.read, he]
    refine .inl ⟨by simp [Cache.contains, Table.contains, he], ?_⟩
    rw [Cache.fetch, hread, Cache.complete_outcome, h.gone]
  | some bytes =>
    obtain ⟨copy, hb, (hc | hdue) | hpending⟩ := hs.coherent.entries id bytes he
    · have hread : front.cache.read id = (.hit copy, front.cache) := by simp [Cache.read, he, hb]
      have hheld : held.fetch id = .ok copy := hc
      refine .inr ⟨by simp [Cache.contains, Table.contains, he], copy, ?_, by rw [Cache.fetch, hread]⟩
      rw [← hl, hheld]
      rfl
    · exact absurd hdue hd
    · rw [hp] at hpending
      cases hpending

/-- No turn of the run is a save that stores anything of the navigation. -/
def Unsaved (front : Front) (id : Identity) (turns : List Turn) : Prop :=
  front.Along (fun front turn => front.stores id turn = false) turns

/-- By no turn of the run the cache hears of the navigation. -/
def Untold (front : Front) (id : Identity) (turns : List Turn) : Prop :=
  front.Along (fun front turn => front.tells id turn = false) turns

instance (front : Front) (id : Identity) (turns : List Turn) : Decidable (front.Unsaved id turns) :=
  inferInstanceAs (Decidable (front.Along _ turns))

instance (front : Front) (id : Identity) (turns : List Turn) : Decidable (front.Untold id turns) :=
  inferInstanceAs (Decidable (front.Along _ turns))

/-- The cache has an entry of the navigation, or a load of it was answered and may still bring one. -/
def HasCopy (front : Front) (id : Identity) : Prop :=
  front.cache.contains id = true ∨
    ∃ ticket load copy, front.loads.get? ticket = some ⟨load, some (.ok copy)⟩ ∧ load.id = id

theorem barred_of_no_copy (h : ¬front.HasCopy id) : Barred front.cache front.loads id where
  loads ticket load copy hl hid := absurd (.inr ⟨ticket, load, copy, hl, hid⟩) h
  entry he := absurd (.inl he) h

/-- A run after a deletion: calm, and without a save that takes the deletion back. -/
def Follows (front : Front) (id : Identity) (turns : List Turn) : Prop :=
  front.Along (fun front turn => (front.step turn).Calm ∧ front.stores id turn = false) turns

theorem Erased.run (h : Erased front id last) (hf : front.Follows id turns) :
    Erased (turns.foldl Front.step front) id last :=
  hf.preserved (Erased · id last) (fun _ _ hturn h => h.step hturn.1 hturn.2) h

theorem Barred.run (h : Barred front.cache front.loads id) (he : Erased front id last)
    (hf : front.Follows id turns) :
    Barred (turns.foldl Front.step front).cache (turns.foldl Front.step front).loads id := by
  refine (hf.preserved (fun front => Erased front id last ∧ Barred front.cache front.loads id) ?_ ⟨he, h⟩).2
  rintro front turn ⟨hc, hu⟩ ⟨he, h⟩
  obtain ⟨held, loads, hs, _⟩ := he.shadow
  exact ⟨he.step hc hu, h.step hs he.gone⟩

/-- Once the cache has heard of the navigation, nothing of it stays or comes in. -/
theorem barred_of_told (he : Erased front id last) (hf : front.Follows id turns)
    (ht : ¬front.Untold id turns) :
    Barred (turns.foldl Front.step front).cache (turns.foldl Front.step front).loads id := by
  induction turns generalizing front with
  | nil => exact absurd trivial ht
  | cons turn rest ih =>
    have hstep := he.step hf.1.1 hf.1.2
    cases htold : front.tells id turn with
    | true =>
      obtain ⟨held, loads, hs, _⟩ := he.shadow
      exact (barred_of_tells hs htold).run hstep hf.2
    | false => exact ih hstep hf.2 fun hrest => ht ⟨htold, hrest⟩

/-- As long as the cache does not hear of the navigation, what was to come is to come, and what is settled
stays. -/
theorem Untold.run (ht : front.Untold id turns) (he : Erased front id last) (hf : front.Follows id turns) :
    (front.Due id → (turns.foldl Front.step front).Due id) ∧
      (Settled front.cache id → Settled (turns.foldl Front.step front).cache id) := by
  have hall := hf.and ht
  refine (hall.preserved (fun state => Erased state id last ∧ (front.Due id → state.Due id) ∧
    (Settled front.cache id → Settled state.cache id)) ?_ ⟨he, fun hd => hd, fun hs => hs⟩).2
  rintro state turn ⟨⟨hc, hu⟩, ht⟩ ⟨he, hdue, hsettled⟩
  obtain ⟨held, loads, hs, _⟩ := he.shadow
  exact ⟨he.step hc hu, fun hd => (hdue hd).step hs hc ht, fun h => (hsettled h).step hs ht⟩

/-- A deletion that succeeds erases, and a copy of the navigation is then the one that was held last. -/
theorem erased_delete {repository : Repository} {bus : Bus} {errorBuffer : Nat} {before : List Turn}
    {nav : Navigation} (ho : bus.isOpen = true) (hc : (start repository bus errorBuffer).CalmRun before)
    (hd : ((before.foldl Front.step (start repository bus errorBuffer)).repository.delete nav).isOk = true) :
    Erased ((before.foldl Front.step (start repository bus errorBuffer)).step (.delete nav)) nav.id
      ((start repository bus errorBuffer).lastHeld nav.id before) := by
  obtain ⟨held, loads, hs, hl⟩ := (shadow_of_coherent (coherent_start ho hc.1)).run hc.2
  refine ⟨?_, held, loads, hs.delete nav, ?_⟩
  · simp only [step]
    split
    · rename_i left hleft
      simp only [Repository.fetch_delete hleft, if_true]
    · rename_i error hfailed
      rw [hfailed] at hd
      cases hd
  · rw [hl, lastHeld_or_fetch]

/-- A deleted navigation can be fetched neither from the repository nor through the cache, unless the cache has had
a copy since before the deletion and has not heard of the navigation after it. -/
theorem fetch_after_deletion (repository : Repository) (bus : Bus) (errorBuffer : Nat) (nav : Navigation)
    (before after : List Turn) :
    let origin := start repository bus errorBuffer
    let deleted := (before.foldl step origin).step (.delete nav)
    let final := after.foldl step deleted
    let fetched := (final.cache.fetch final.repository nav.id).1
    bus.isOpen = true → origin.CalmRun (before ++ .delete nav :: after) →
    ((before.foldl step origin).repository.delete nav).isOk = true → deleted.Unsaved nav.id after →
    (¬∃ envelope ∈ final.outbox ++ final.queue, envelope.id = nav.id) →
    final.cache.pending.contains nav.id = false →
      final.repository.fetch nav.id = .error (.notFound nav.id) ∧
      (fetched = Cache.outcome nav.id (.error (.notFound nav.id)) ∨
        deleted.Untold nav.id after ∧ deleted.HasCopy nav.id ∧
          (¬∃ envelope ∈ deleted.outbox ++ deleted.queue, envelope.id = nav.id) ∧
          ∃ copy, origin.lastHeld nav.id before = some copy ∧ fetched = .ok copy) ∧
      (deleted.Untold nav.id after → Settled deleted.cache nav.id →
        ∃ copy, origin.lastHeld nav.id before = some copy ∧ fetched = .ok copy) := by
  intro origin deleted final fetched ho hcalm hd hunsaved hdue hidle
  obtain ⟨hbefore, hdelete⟩ := along_append.mp hcalm.2
  have herased : Erased deleted nav.id (origin.lastHeld nav.id before) := erased_delete ho ⟨hcalm.1, hbefore⟩ hd
  have hfollows : deleted.Follows nav.id after := hdelete.2.and hunsaved
  have hfinal : Erased final nav.id (origin.lastHeld nav.id before) := herased.run hfollows
  refine ⟨hfinal.gone, ?_, fun ht hs => ?_⟩
  · rcases hfinal.fetch_eq hdue hidle with ⟨_, hnone⟩ | ⟨hkept, hcopied⟩
    · exact .inl hnone
    · -- Each of the three conditions would have barred the copy.
      have hopen : ¬Barred final.cache final.loads nav.id := by
        intro hb
        rw [hb.entry hkept] at hidle
        cases hidle
      have huntold : deleted.Untold nav.id after :=
        Decidable.byContradiction fun hn => hopen (barred_of_told herased hfollows hn)
      have hhad : deleted.HasCopy nav.id :=
        Classical.byContradiction fun hn => hopen ((barred_of_no_copy hn).run herased hfollows)
      exact .inr ⟨huntold, hhad, fun hd => hdue ((huntold.run herased hfollows).1 hd), hcopied⟩
  · rcases hfinal.fetch_eq hdue hidle with ⟨hnone, _⟩ | ⟨_, hcopied⟩
    · rw [((ht.run herased hfollows).2 hs).1] at hnone
      cases hnone
    · exact hcopied

def emptyOrigin : Front := start .empty (.new 4) 1

def firstSave (id : Identity) : Navigation := (Navigation.new id).record (.created "main")

/-- A load is answered, its navigation deleted, and only then the cache takes the event of the save. -/
theorem fetch_after_deletion_of_event :
    let nav := firstSave (.ofSeed 1)
    let deleted := ([.append nav ⟨0, 0⟩, .publish 0, .begin 0 nav.id, .answer 0].foldl step emptyOrigin).step
      (.delete nav)
    let final := [.deliver, .finish 0, .timeOut nav.id 0].foldl step deleted
    (final.cache.fetch final.repository nav.id).1 = Cache.outcome nav.id (.error (.notFound nav.id)) := by
  intro nav deleted final
  have hlaw := fetch_after_deletion .empty (.new 4) 1 nav [.append nav ⟨0, 0⟩, .publish 0, .begin 0 nav.id, .answer 0]
    [.deliver, .finish 0, .timeOut nav.id 0] rfl (by decide +kernel) (by decide +kernel) (by decide +kernel)
    (by decide +kernel) (by decide +kernel)
  have htold : ¬deleted.Untold nav.id [.deliver, .finish 0, .timeOut nav.id 0] := by decide +kernel
  exact hlaw.2.1.resolve_right fun h => htold h.1

/-- A copy in the cache outlives the deletion, with no event to come and no timer running. -/
theorem copy_outlives_deletion :
    let nav := firstSave (.ofSeed 1)
    let turns := [.append nav ⟨0, 0⟩, .publish 0, .deliver, .timeOut nav.id 0, .begin 0 nav.id, .answer 0,
      .finish 0]
    let final := (turns.foldl step emptyOrigin).step (.delete nav)
    emptyOrigin.CalmRun (turns ++ [.delete nav]) ∧
      ((turns.foldl step emptyOrigin).repository.delete nav).isOk = true ∧
      (¬∃ envelope ∈ final.outbox ++ final.queue, envelope.id = nav.id) ∧
      final.cache.pending.contains nav.id = false ∧
      final.repository.fetch nav.id = .error (.notFound nav.id) ∧
      (final.cache.fetch final.repository nav.id).1 = .ok (.ofEvents nav.id [.created "main"]) := by
  intro nav turns final
  have hserved : (final.cache.fetch final.repository nav.id).1.toOption =
      some (.ofEvents nav.id [.created "main"]) := by decide +kernel
  refine ⟨by decide +kernel, by decide +kernel, by decide +kernel, by decide +kernel,
    Repository.fetch_eq_error.mpr ⟨by decide +kernel, rfl⟩, ?_⟩
  cases hf : (final.cache.fetch final.repository nav.id).1 with
  | error failure =>
    rw [hf] at hserved
    cases hserved
  | ok copy =>
    rw [hf] at hserved
    exact congrArg Except.ok (Option.some.inj hserved)

end Front

end Wayfinding
