import Wayfinding.Proofs.Coherence

namespace Wayfinding

namespace Repository

/-- The repository with what another one holds of a navigation, if that one holds any of it. -/
def recalling (held after : Repository) (id : Identity) : Repository :=
  ⟨held.streams.insert id (if after.eventsOf id = [] then held.stream id else after.stream id), held.log⟩

theorem eventsOf_recalling (held after : Repository) (id other : Identity) :
    (held.recalling after id).eventsOf other =
      if other = id ∧ after.eventsOf other ≠ [] then after.eventsOf other else held.eventsOf other := by
  rw [recalling, eventsOf_insert]
  by_cases ho : other = id
  · subst ho
    by_cases hs : after.eventsOf other = []
    · rw [if_pos rfl, if_pos hs, if_neg fun h => h.2 hs]
      rfl
    · rw [if_pos rfl, if_neg hs, if_pos ⟨rfl, hs⟩]
      rfl
  · simp [ho]

theorem fetch_recalling (held after : Repository) (id other : Identity) :
    (held.recalling after id).fetch other =
      if other = id ∧ after.eventsOf other ≠ [] then after.fetch other else held.fetch other := by
  rw [fetch_eq, eventsOf_recalling, fetch_eq after, fetch_eq held]
  split <;> rfl

/-- The repository holds what another one does, or nothing. -/
def Forgets (repository held : Repository) : Prop :=
  ∀ id, repository.fetch id = held.fetch id ∨ repository.fetch id = .error (.notFound id)

/-- What is held now: what the repository holds, or else what was held before. -/
def Recalled (repository before now : Repository) : Prop :=
  ∀ id, (now.fetch id).toOption = (repository.fetch id).toOption.or (before.fetch id).toOption

variable {repository held : Repository}

theorem Forgets.fetch_ok (h : repository.Forgets held) {id : Identity} {nav : Navigation}
    (hf : repository.fetch id = .ok nav) : held.fetch id = .ok nav := by
  rcases h id with hs | hs
  · rw [← hs, hf]
  · rw [hs] at hf
    cases hf

theorem Forgets.recalled (h : repository.Forgets held) : repository.Recalled held held := by
  intro id
  rcases h id with hs | hs
  · rw [hs, Option.or_self]
  · rw [hs]
    rfl

theorem Forgets.fetch_recalling (h : repository.Forgets held) {after : Repository} {other : Identity}
    (same : after.fetch other = repository.fetch other) (id : Identity) :
    (held.recalling after id).fetch other = held.fetch other := by
  rw [Repository.fetch_recalling]
  split
  · rename_i hr
    have ha := fetch_eq_ok.mpr ⟨hr.2, rfl⟩
    exact ha.trans (h.fetch_ok (same.symm.trans ha)).symm
  · rfl

theorem Forgets.save (h : repository.Forgets held) (now : Timestamp) (nav : Navigation) :
    (repository.save now nav).repository.Forgets
      (held.recalling (repository.save now nav).repository nav.id) := by
  intro id
  by_cases hid : id = nav.id
  · rw [Repository.fetch_recalling]
    split
    · exact .inl rfl
    · rename_i hn
      exact .inr (fetch_eq_error.mpr ⟨Decidable.byContradiction fun he => hn ⟨hid, he⟩, rfl⟩)
  · rw [h.fetch_recalling (fetch_save_ne repository now hid), fetch_save_ne repository now hid]
    exact h id

theorem Forgets.recalled_save (h : repository.Forgets held) (now : Timestamp) (nav : Navigation) :
    (repository.save now nav).repository.Recalled held
      (held.recalling (repository.save now nav).repository nav.id) := by
  intro id
  by_cases hid : id = nav.id
  · rw [Repository.fetch_recalling]
    by_cases hn : (repository.save now nav).repository.eventsOf id = []
    · rw [if_neg fun h => h.2 hn, fetch_eq_error.mpr ⟨hn, rfl⟩]
      rfl
    · rw [if_pos ⟨hid, hn⟩, fetch_eq_ok.mpr ⟨hn, rfl⟩]
      rfl
  · rw [h.fetch_recalling (fetch_save_ne repository now hid), fetch_save_ne repository now hid]
    exact h.recalled id

theorem Forgets.delete (h : repository.Forgets held) {nav : Navigation} {after : Repository}
    (hd : repository.delete nav = .ok after) : after.Forgets held := by
  intro id
  rw [fetch_delete hd]
  split
  · exact .inr rfl
  · exact h id

end Repository

/-- The turn is between the bus and the cache alone. -/
def Turn.listens : Turn → Bool
  | publish _ | deliver | invalidate _ | timeOut .. => true
  | _ => false

namespace Front

/-- Each turn of a run is allowed in the state that it is made in. -/
def Along (front : Front) (allowed : Front → Turn → Prop) : List Turn → Prop
  | [] => True
  | turn :: rest => allowed front turn ∧ (front.step turn).Along allowed rest

instance decidableAlong (allowed : Front → Turn → Prop) [∀ front turn, Decidable (allowed front turn)] :
    (front : Front) → (turns : List Turn) → Decidable (front.Along allowed turns)
  | _, [] => inferInstanceAs (Decidable True)
  | front, turn :: rest =>
    @instDecidableAnd _ _ inferInstance (decidableAlong allowed (front.step turn) rest)

/-- Every state that a run passes through is calm. -/
def CalmRun (front : Front) (turns : List Turn) : Prop :=
  front.Calm ∧ front.Along (fun front turn => (front.step turn).Calm) turns

instance (front : Front) (turns : List Turn) : Decidable (front.CalmRun turns) :=
  inferInstanceAs (Decidable (_ ∧ _))

/-- What the repository held last of a navigation, at the end of a run. -/
def lastHeld (front : Front) (id : Identity) : List Turn → Option Navigation
  | [] => (front.repository.fetch id).toOption
  | turn :: rest => ((front.step turn).lastHeld id rest).or (front.repository.fetch id).toOption

variable {front : Front} {id : Identity} {turns : List Turn}

theorem lastHeld_or_fetch (front : Front) (id : Identity) (turns : List Turn) :
    (front.lastHeld id turns).or (front.repository.fetch id).toOption = front.lastHeld id turns := by
  cases turns with
  | nil => exact Option.or_self
  | cons turn rest => rw [lastHeld, Option.or_assoc, Option.or_self]

theorem Along.and {first second : Front → Turn → Prop} (hf : front.Along first turns)
    (hs : front.Along second turns) : front.Along (fun front turn => first front turn ∧ second front turn) turns := by
  induction turns generalizing front with
  | nil => trivial
  | cons turn rest ih => exact ⟨⟨hf.1, hs.1⟩, ih hf.2 hs.2⟩

theorem along_append {allowed : Front → Turn → Prop} {before after : List Turn} :
    front.Along allowed (before ++ after) ↔
      front.Along allowed before ∧ (before.foldl step front).Along allowed after := by
  induction before generalizing front with
  | nil => simp [Along]
  | cons turn rest ih => simp [Along, ih, and_assoc]

/-- What each allowed turn preserves, a run preserves. -/
theorem Along.preserved {allowed : Front → Turn → Prop} (kept : Front → Prop)
    (h : front.Along allowed turns)
    (step : ∀ front turn, allowed front turn → kept front → kept (front.step turn)) (hk : kept front) :
    kept (turns.foldl Front.step front) := by
  induction turns generalizing front with
  | nil => exact hk
  | cons turn rest ih => exact ih h.2 (step front turn h.1 hk)

/-- The front behaves like one whose repository is `held`, which forgets nothing. A load that was told that
there is nothing to fetch has yet to be answered there. -/
structure Shadow (front : Front) (held : Repository) (loads : Table Nat Loading) : Prop where
  coherent : Coherent { front with repository := held, loads := loads }
  forgets : front.repository.Forgets held
  loading : ∀ ticket load answer, front.loads.get? ticket = some ⟨load, answer⟩ →
    (∀ error, answer ≠ some (.error error)) → loads.get? ticket = some ⟨load, answer⟩

variable {held : Repository} {loads : Table Nat Loading}

theorem Shadow.wired (h : Shadow front held loads) : front.Wired := { h.coherent.wired with }

theorem Shadow.append (h : Shadow front held loads) (nav : Navigation) (now : Timestamp)
    (hc : (front.step (.append nav now)).Calm) : Shadow (front.step (.append nav now))
      (held.recalling (front.repository.save now nav).repository nav.id) loads := by
  have hw := h.wired.append nav now
  refine ⟨?_, h.forgets.save now nav, h.loading⟩
  refine h.coherent.passed ⟨hc.caughtUp, fun id copy hf => ?_⟩ { hw with } fun id fetched hp => ?_
  · rw [Repository.fetch_recalling] at hf
    split at hf
    · exact hc.fits id copy hf
    · exact h.coherent.calm.fits id copy hf
  · rcases Repository.fetch_save front.repository now nav id with hs | ⟨envelope, he, hid⟩
    · have hsame := h.forgets.fetch_recalling hs nav.id
      exact hp.imp hsame.trans fun hd : front.Due id => hd.append nav now
    · exact .inr ⟨envelope, mem_stored.mpr (.inr he), hid⟩

/-- Turns that neither the repository nor the loads take part in go the same way with others of them. -/
theorem step_listening (front : Front) {turn : Turn} (ht : turn.listens = true) :
    ∃ bus outbox follower cache, ∀ repository loads,
      step ⟨repository, front.bus, front.outbox, front.follower, front.cache, loads⟩ turn =
        ⟨repository, bus, outbox, follower, cache, loads⟩ := by
  cases turn with
  | publish place =>
    cases ho : front.outbox[place]? with
    | none => exact ⟨_, _, _, _, fun _ _ => by simp only [step, ho]; rfl⟩
    | some envelope => exact ⟨_, _, _, _, fun _ _ => by simp only [step, ho]; rfl⟩
  | deliver =>
    cases hs : front.follower.step? Service.invalidateFor front.bus (front.cache, []) with
    | none => exact ⟨_, _, _, _, fun _ _ => by simp only [step, hs]; rfl⟩
    | some taken => exact ⟨_, _, _, _, fun _ _ => by simp only [step, hs]; rfl⟩
  | invalidate id => exact ⟨_, _, _, front.cache.invalidate id, fun _ _ => rfl⟩
  | timeOut id generation => exact ⟨_, _, _, front.cache.expire id generation, fun _ _ => rfl⟩
  | append | delete | begin | answer | finish => cases ht

theorem Shadow.listening (h : Shadow front held loads) {turn : Turn} (ht : turn.listens = true)
    (hc : (front.step turn).Calm) : Shadow (front.step turn) held loads := by
  obtain ⟨bus, outbox, follower, cache, hs⟩ := front.step_listening ht
  have hfront : front.step turn = ⟨front.repository, bus, outbox, follower, cache, front.loads⟩ := hs _ _
  have hkeeps : turn.deletes = false := by cases turn <;> first | rfl | cases ht
  rw [hfront] at hc ⊢
  refine ⟨?_, h.forgets, h.loading⟩
  have hcalm : Calm ⟨held, bus, outbox, follower, cache, loads⟩ := ⟨hc.caughtUp, h.coherent.calm.fits⟩
  rw [← hs] at hcalm
  have hstep := h.coherent.step hkeeps hcalm
  rwa [hs] at hstep

/-- The loads of both stay alike if the same happens to them. -/
theorem Shadow.loading_insert (h : Shadow front held loads) (ticket : Nat) (loading : Loading) (other : Nat)
    (load : Cache.Load) (answer : Option (Except NavigationError Navigation))
    (hl : (front.loads.insert ticket loading).get? other = some ⟨load, answer⟩)
    (ha : ∀ error, answer ≠ some (.error error)) :
    (loads.insert ticket loading).get? other = some ⟨load, answer⟩ := by
  rw [Table.get?_insert] at hl ⊢
  split
  · rename_i ho
    rwa [if_pos ho] at hl
  · rename_i ho
    rw [if_neg ho] at hl
    exact h.loading other load answer hl ha

theorem Shadow.begin (h : Shadow front held loads) (ticket : Nat) (id : Identity) :
    ∃ loads, Shadow (front.step (.begin ticket id)) held loads := by
  have hstep := h.coherent.begin ticket id
  rcases h.coherent.read_eq id with ⟨nav, hr, _⟩ | hr
  · simp only [step, hr] at hstep ⊢
    exact ⟨loads, hstep, h.forgets, h.loading⟩
  · simp only [step, hr] at hstep ⊢
    exact ⟨_, hstep, h.forgets, h.loading_insert ticket _⟩

/-- Where there is nothing to fetch any more, the load in the shadow waits on. -/
theorem Shadow.answer (h : Shadow front held loads) (ticket : Nat) :
    ∃ loads, Shadow (front.step (.answer ticket)) held loads := by
  simp only [Front.step]
  split
  · rename_i load hload
    have hshadow : loads.get? ticket = some ⟨load, none⟩ := h.loading ticket load none hload (by simp)
    cases hf : front.repository.fetch load.id with
    | ok nav =>
      have hstep := h.coherent.answer ticket
      simp only [Front.step, hshadow, h.forgets.fetch_ok hf] at hstep
      exact ⟨_, hstep, h.forgets, h.loading_insert ticket _⟩
    | error error =>
      refine ⟨loads, h.coherent, h.forgets, ?_⟩
      intro other found answer hl ha
      rw [Table.get?_insert] at hl
      split at hl
      · cases hl
        exact absurd rfl (ha error)
      · exact h.loading other found answer hl ha
  · exact ⟨loads, h⟩

theorem Shadow.finish (h : Shadow front held loads) (ticket : Nat) :
    ∃ loads, Shadow (front.step (.finish ticket)) held loads := by
  have hleft : ∀ other load answer, (front.loads.erase ticket).get? other = some ⟨load, answer⟩ →
      other ≠ ticket ∧ front.loads.get? other = some ⟨load, answer⟩ := by
    intro other load answer hl
    rw [Table.get?_erase] at hl
    split at hl
    · cases hl
    · rename_i ho
      exact ⟨ho, hl⟩
  simp only [Front.step]
  split
  · rename_i load fetched hload
    cases fetched with
    | ok nav =>
      have hshadow : loads.get? ticket = some ⟨load, some (.ok nav)⟩ :=
        h.loading ticket load _ hload (by simp)
      have hstep := h.coherent.finish ticket
      simp only [Front.step, hshadow] at hstep
      refine ⟨_, hstep, h.forgets, ?_⟩
      intro other found answer hl ha
      obtain ⟨ho, hl⟩ := hleft other found answer hl
      rw [Table.get?_erase, if_neg ho]
      exact h.loading other found answer hl ha
    | error error =>
      exact ⟨loads, h.coherent, h.forgets, fun other found answer hl =>
        h.loading other found answer (hleft other found answer hl).2⟩
  · exact ⟨loads, h⟩

theorem Shadow.delete (h : Shadow front held loads) (nav : Navigation) :
    Shadow (front.step (.delete nav)) held loads := by
  simp only [Front.step]
  cases hd : front.repository.delete nav with
  | error error => exact h
  | ok left => exact ⟨h.coherent, h.forgets.delete hd, h.loading⟩

/-- The run goes on in the shadow, whatever the turn. -/
theorem Shadow.step (h : Shadow front held loads) (turn : Turn) (hc : (front.step turn).Calm) :
    ∃ held' loads', Shadow (front.step turn) held' loads' ∧
      (front.step turn).repository.Recalled held held' := by
  have hsame : (∃ loads, Shadow (front.step turn) held loads) → ∃ held' loads',
      Shadow (front.step turn) held' loads' ∧ (front.step turn).repository.Recalled held held' := by
    rintro ⟨loads, hs⟩
    exact ⟨held, loads, hs, hs.forgets.recalled⟩
  cases turn with
  | append nav now => exact ⟨_, loads, h.append nav now hc, h.forgets.recalled_save now nav⟩
  | delete nav => exact hsame ⟨_, h.delete nav⟩
  | begin ticket id => exact hsame (h.begin ticket id)
  | answer ticket => exact hsame (h.answer ticket)
  | finish ticket => exact hsame (h.finish ticket)
  | publish | deliver | invalidate | timeOut => exact hsame ⟨_, h.listening rfl hc⟩

theorem Shadow.calm (h : Shadow front held loads) : front.Calm :=
  ⟨h.coherent.calm.caughtUp, fun id nav hf => h.coherent.calm.fits id nav (h.forgets.fetch_ok hf)⟩

theorem shadow_of_coherent (h : front.Coherent) : Shadow front front.repository front.loads :=
  ⟨h, fun _ => .inl rfl, fun _ _ _ hl _ => hl⟩

/-- What the shadow holds at the end of a run is what the repository held last. -/
theorem Shadow.run (h : Shadow front held loads)
    (hc : front.Along (fun front turn => (front.step turn).Calm) turns) :
    ∃ held' loads', Shadow (turns.foldl Front.step front) held' loads' ∧
      ∀ id, (held'.fetch id).toOption = (front.lastHeld id turns).or (held.fetch id).toOption := by
  induction turns generalizing front held loads with
  | nil => exact ⟨held, loads, h, h.forgets.recalled⟩
  | cons turn rest ih =>
    obtain ⟨middle, loads', hs, hm⟩ := h.step turn hc.1
    obtain ⟨held', loads'', hrun, hr⟩ := ih hs hc.2
    refine ⟨held', loads'', hrun, fun id => ?_⟩
    rw [hr id, hm id, ← Option.or_assoc, lastHeld_or_fetch, lastHeld, Option.or_assoc, ← h.forgets.recalled id]

theorem Shadow.dated (h : Shadow front held loads) : ∀ ticket load nav,
    front.loads.get? ticket = some ⟨load, some (.ok nav)⟩ → front.cache.Dated load.epoch :=
  fun ticket load nav hl => h.coherent.begun ticket _ (h.loading ticket load _ hl (by simp))

end Front

end Wayfinding
