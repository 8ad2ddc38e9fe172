import Mathlib.Data.List.Induction
import Mathlib.Data.List.Nodup
import Wayfinding.Service.Request

namespace Wayfinding

namespace Cache

variable {cache : Cache} {id : Identity}

theorem pending_expire (cache : Cache) (id other : Identity) (generation pending : Nat) :
    (cache.expire id generation).pending.get? other = some pending ↔
      cache.pending.get? other = some pending ∧ ¬(other = id ∧ pending = generation) := by
  unfold expire
  split
  · rename_i hcounts
    rw [Table.get?_erase]
    split
    · rename_i same
      subst same
      rw [hcounts]
      constructor
      · intro h
        cases h
      · rintro ⟨h, hne⟩
        cases h
        exact absurd ⟨rfl, rfl⟩ hne
    · rename_i different
      exact ⟨fun h => ⟨h, fun same => different same.1⟩, And.left⟩
  · rename_i hstale
    refine ⟨fun h => ⟨h, ?_⟩, And.left⟩
    rintro ⟨rfl, rfl⟩
    exact hstale h

theorem expire_counting {generation : Nat} (h : cache.pending.get? id = some generation) :
    cache.expire id generation =
      { cache with pending := cache.pending.erase id, entries := cache.entries.erase id } := if_pos h

theorem expire_stale {generation : Nat} (h : cache.pending.get? id ≠ some generation) :
    cache.expire id generation = cache := if_neg h

theorem epochs_expire (cache : Cache) (id : Identity) (generation : Nat) :
    (cache.expire id generation).epochs = cache.epochs := by
  unfold expire
  split <;> rfl

theorem generation_expire (cache : Cache) (id : Identity) (generation : Nat) :
    (cache.expire id generation).generation = cache.generation := by
  unfold expire
  split <;> rfl

theorem expire_other (cache : Cache) {id other : Identity} (generation : Nat) (h : other ≠ id) :
    (cache.expire id generation).entries.get? other = cache.entries.get? other ∧
      (cache.expire id generation).pending.get? other = cache.pending.get? other := by
  unfold expire
  split
  · exact ⟨Table.get?_erase_ne _ h, Table.get?_erase_ne _ h⟩
  · exact ⟨rfl, rfl⟩

/-- To begin a fetch touches nothing but an entry of its navigation. -/
theorem read_entries (cache : Cache) (id : Identity) :
    ∃ entries, (cache.read id).2 = { cache with entries := entries } ∧
      ∀ other, other ≠ id → entries.get? other = cache.entries.get? other := by
  unfold read
  split
  · exact ⟨cache.entries, rfl, fun _ _ => rfl⟩
  · split
    · exact ⟨cache.entries, rfl, fun _ _ => rfl⟩
    · exact ⟨_, rfl, fun other hne => Table.get?_erase_ne _ hne⟩

/-- To end a load touches nothing but an entry of its navigation. -/
theorem complete_entries (cache : Cache) (load : Load) (fetched : Except NavigationError Navigation) :
    ∃ entries, (cache.complete load fetched).2 = { cache with entries := entries } ∧
      ∀ other, other ≠ load.id → entries.get? other = cache.entries.get? other := by
  unfold complete
  split
  · unfold store
    dsimp only
    split
    · exact ⟨_, rfl, fun other hne => Table.get?_insert_ne _ _ hne⟩
    · exact ⟨cache.entries, rfl, fun _ _ => rfl⟩
  · exact ⟨cache.entries, rfl, fun _ _ => rfl⟩

end Cache

/-- A timer that was started and has not run out. -/
structure Timer where
  id : Identity
  generation : Nat
  /-- The time at which it may run out, once it was set. -/
  due : Option Nat
deriving DecidableEq

/-- A cache on a clock. -/
structure Watch where
  /-- How many milliseconds an entry is to outlive the latest invalidation of its navigation. -/
  window : Nat
  clock : Nat
  cache : Cache
  /-- All timers on their way, also those that were replaced or given up, in the order of their start. -/
  timers : List Timer
  /-- The fetches that wait for the repository, by their tickets. -/
  loads : Table Nat Cache.Load

namespace Watch

inductive Action where
  | wait (milliseconds : Nat)
  | invalidate (id : Identity)
  | shutdown
  /-- The timer at this place is set. -/
  | set (place : Nat)
  /-- The timer at this place runs out, if it is due. It need not be on time. -/
  | fire (place : Nat)
  /-- A fetch begins: it ends here on a hit, and on a miss it becomes a load. -/
  | begin (ticket : Nat) (id : Identity)
  /-- A load brings back what the repository answered. -/
  | finish (ticket : Nat) (fetched : Except NavigationError Navigation)

/-- After this the timers of the navigation that were started before count no more. -/
def Action.unsettles (id : Identity) : Action → Prop
  | invalidate other => other = id
  | shutdown => True
  | _ => False

def start (window : Nat) : Watch := ⟨window, 0, .empty, [], .empty⟩

/-- When a timer that is set now may run out. -/
def endOfWindow (watch : Watch) : Nat := watch.clock + min watch.window Service.longestWait

def step (watch : Watch) : Action → Watch
  | .wait milliseconds => { watch with clock := watch.clock + milliseconds }
  | .invalidate id =>
    { watch with
      cache := watch.cache.invalidate id
      timers := watch.timers ++ [⟨id, watch.cache.generation, none⟩] }
  | .shutdown => { watch with cache := watch.cache.shutdown }
  | .set place =>
    match watch.timers[place]? with
    | some ⟨id, generation, none⟩ =>
      { watch with timers := watch.timers.set place ⟨id, generation, some watch.endOfWindow⟩ }
    | _ => watch
  | .fire place =>
    match watch.timers[place]? with
    | some ⟨id, generation, some due⟩ =>
      if due ≤ watch.clock then
        { watch with
          cache := watch.cache.expire id generation
          timers := watch.timers.eraseIdx place }
      else watch
    | _ => watch
  | .begin ticket id =>
    match watch.cache.read id with
    | (.hit _, cache) => { watch with cache := cache }
    | (.miss load, cache) => { watch with cache := cache, loads := watch.loads.insert ticket load }
  | .finish ticket fetched =>
    match watch.loads.get? ticket with
    | some load =>
      { watch with
        cache := (watch.cache.complete load fetched).2
        loads := watch.loads.erase ticket }
    | none => watch

def run (window : Nat) (actions : List Action) : Watch := actions.foldl step (start window)

/-- The cache of a service, with the timers that are looked at. -/
def ofService (service : Service) (timers : List Timer) : Watch :=
  ⟨service.settings.debounceMs, service.clock, service.cache, timers, .empty⟩

/-- The navigation that an action is about, if it is about one. -/
def subject? (watch : Watch) : Action → Option Identity
  | .invalidate id => some id
  | .set place => watch.timers[place]?.map Timer.id
  | .fire place => watch.timers[place]?.map Timer.id
  | .begin _ id => some id
  | .finish ticket _ => (watch.loads.get? ticket).map Cache.Load.id
  | _ => none

/-- This generation was given out by the latest invalidation of the navigation, which was at this time, and
there was no shutdown since. -/
def Latest (window : Nat) (actions : List Action) (id : Identity) (generation time : Nat) : Prop :=
  ∃ before after, actions = before ++ .invalidate id :: after ∧
    (run window before).cache.generation = generation ∧ (run window before).clock = time ∧
      ∀ action ∈ after, ¬action.unsettles id

/-- Nothing that belongs to this navigation differs. -/
structure Untouched (id : Identity) (watch after : Watch) : Prop where
  entry : after.cache.entries.get? id = watch.cache.entries.get? id
  pending : after.cache.pending.get? id = watch.cache.pending.get? id
  epoch : after.cache.epochs.get? id = watch.cache.epochs.get? id
  timers : after.timers.filter (·.id = id) = watch.timers.filter (·.id = id)

/-- All that an action can do: time passes and entries change, or a timer is started, given up, set, or runs
out. -/
inductive Progress (watch : Watch) : Action → Watch → Prop where
  | went {action : Action} (clock : Nat) (entries : Table Identity (List UInt8)) (loads : Table Nat Cache.Load)
      (settled : ∀ id, ¬action.unsettles id) (later : watch.clock ≤ clock)
      (kept : ∀ id, watch.subject? action ≠ some id → entries.get? id = watch.cache.entries.get? id) :
      Progress watch action
        { watch with clock := clock, cache := { watch.cache with entries := entries }, loads := loads }
  | invalidated (id : Identity) :
      Progress watch (.invalidate id)
        { watch with
          cache := watch.cache.invalidate id
          timers := watch.timers ++ [⟨id, watch.cache.generation, none⟩] }
  | shutDown : Progress watch .shutdown { watch with cache := watch.cache.shutdown }
  | set (place : Nat) (earlier later : List Timer) (id : Identity) (generation : Nat)
      (found : watch.timers[place]? = some ⟨id, generation, none⟩)
      (timers : watch.timers = earlier ++ ⟨id, generation, none⟩ :: later) :
      Progress watch (.set place)
        { watch with timers := earlier ++ ⟨id, generation, some watch.endOfWindow⟩ :: later }
  | fired (place : Nat) (earlier later : List Timer) (id : Identity) (generation due : Nat)
      (found : watch.timers[place]? = some ⟨id, generation, some due⟩)
      (timers : watch.timers = earlier ++ ⟨id, generation, some due⟩ :: later) (reached : due ≤ watch.clock) :
      Progress watch (.fire place)
        { watch with cache := watch.cache.expire id generation, timers := earlier ++ later }

theorem exists_around {timers : List Timer} {place : Nat} {timer : Timer}
    (h : timers[place]? = some timer) : ∃ earlier later, timers = earlier ++ timer :: later ∧
      timers.eraseIdx place = earlier ++ later ∧
      ∀ other, timers.set place other = earlier ++ other :: later := by
  obtain ⟨hlt, rfl⟩ := List.getElem?_eq_some_iff.mp h
  refine ⟨timers.take place, timers.drop (place + 1), ?_, List.eraseIdx_eq_take_drop_succ .., fun other => ?_⟩
  · rw [List.getElem_cons_drop, List.take_append_drop]
  · exact List.set_eq_take_append_cons_drop.trans (if_pos hlt)

section Step

variable {watch after : Watch} {action : Action}

theorem Progress.idle (settled : ∀ id, ¬action.unsettles id) : Progress watch action watch :=
  .went watch.clock watch.cache.entries watch.loads settled (Nat.le_refl _) fun _ _ => rfl

theorem progress (watch : Watch) (action : Action) : Progress watch action (watch.step action) := by
  cases action with
  | wait milliseconds =>
    exact .went _ watch.cache.entries watch.loads (fun _ => id) (Nat.le_add_right _ _) fun _ _ => rfl
  | invalidate id => exact .invalidated id
  | shutdown => exact .shutDown
  | set place =>
    simp only [step]
    split
    · rename_i id generation found
      obtain ⟨earlier, later, htimers, _, hset⟩ := exists_around found
      rw [hset]
      exact .set place earlier later id generation found htimers
    · exact .idle fun _ => id
  | fire place =>
    simp only [step]
    split
    · rename_i id generation due found
      split
      · rename_i hreached
        obtain ⟨earlier, later, htimers, herase, _⟩ := exists_around found
        rw [herase]
        exact .fired place earlier later id generation due found htimers hreached
      · exact .idle fun _ => False.elim
    · exact .idle fun _ => id
  | begin ticket id =>
    obtain ⟨entries, hread, hkept⟩ := watch.cache.read_entries id
    have hother : ∀ other, watch.subject? (.begin ticket id) ≠ some other →
        entries.get? other = watch.cache.entries.get? other := fun other hne =>
      hkept other fun same => hne (congrArg some same.symm)
    simp only [step]
    split
    · rename_i nav cache heq
      rw [heq] at hread
      subst hread
      exact .went watch.clock entries watch.loads (fun _ => False.elim) (Nat.le_refl _) hother
    · rename_i load cache heq
      rw [heq] at hread
      subst hread
      exact .went watch.clock entries _ (fun _ => False.elim) (Nat.le_refl _) hother
  | finish ticket fetched =>
    simp only [step]
    split
    · rename_i load hload
      obtain ⟨entries, hcomplete, hkept⟩ := watch.cache.complete_entries load fetched
      rw [hcomplete]
      refine .went watch.clock entries _ (fun _ => id) (Nat.le_refl _) fun other hne => ?_
      refine hkept other fun same => hne ?_
      rw [subject?, hload, same]
      rfl
    · exact .idle fun _ => id

/-- What a service does to its cache and its timers are steps of a watch. -/
theorem ofService_step (service : Service) (timers : List Timer) (id : Identity) (generation : Nat) :
    ofService (service.invalidate id) (timers ++ [⟨id, service.cache.generation, none⟩]) =
        (ofService service timers).step (.invalidate id) ∧
      ofService service.shutdown timers = (ofService service timers).step .shutdown ∧
      (service.settings.debounceMs = 0 → ofService (service.runJob (.setTimer id generation)) [] =
        ((ofService service [⟨id, generation, none⟩]).step (.set 0)).step (.fire 0)) ∧
      (service.settings.debounceMs ≠ 0 → ∃ due,
        (service.runJob (.setTimer id generation)).timed =
            Service.schedule due (.timeOut id generation) service.timed ∧
          ofService (service.runJob (.setTimer id generation)) [⟨id, generation, some due⟩] =
            (ofService service [⟨id, generation, none⟩]).step (.set 0)) ∧
      ∀ due, due ≤ service.clock → ofService (service.runJob (.timeOut id generation)) [] =
        (ofService service [⟨id, generation, some due⟩]).step (.fire 0) := by
  refine ⟨rfl, rfl, fun hzero => ?_, fun hlong => ?_, fun due hdue => ?_⟩
  · simp [ofService, step, endOfWindow, Service.runJob, hzero]
  · refine ⟨service.endOfWait service.settings.debounceMs, ?_, ?_⟩
    · rw [Service.runJob, if_neg hlong]
    · rw [Service.runJob, if_neg hlong]
      rfl
  · simp [ofService, step, Service.runJob, hdue]

theorem Progress.clock_le (h : Progress watch action after) : watch.clock ≤ after.clock := by
  cases h with
  | went _ _ _ _ later => exact later
  | invalidated => exact Nat.le_refl _
  | shutDown => exact Nat.le_refl _
  | set => exact Nat.le_refl _
  | fired => exact Nat.le_refl _

theorem Progress.generation_le (h : Progress watch action after) :
    watch.cache.generation ≤ after.cache.generation := by
  cases h with
  | went => exact Nat.le_refl _
  | invalidated => exact Nat.le_succ _
  | shutDown => exact Nat.le_refl _
  | set => exact Nat.le_refl _
  | fired => exact Nat.le_of_eq (Cache.generation_expire ..).symm

/-- An action that is about one navigation leaves all others alone. -/
theorem Progress.untouched (h : Progress watch action after) {id other : Identity}
    (hs : watch.subject? action = some id) (hne : other ≠ id) : Untouched other watch after := by
  have hfilter : ∀ timer : Timer, timer.id = id → [timer].filter (·.id = other) = [] := by
    rintro timer rfl
    exact List.filter_eq_nil_iff.mpr (by simp [Ne.symm hne])
  cases h with
  | went clock entries loads _ _ kept =>
    refine ⟨kept other fun same => hne ?_, rfl, rfl, rfl⟩
    rw [hs] at same
    exact (Option.some.inj same).symm
  | invalidated subject =>
    cases hs
    refine ⟨rfl, Table.get?_insert_ne _ _ hne, Table.get?_insert_ne _ _ hne, ?_⟩
    rw [List.filter_append, hfilter _ rfl, List.append_nil]
  | shutDown => cases hs
  | set place earlier later subject generation found timers =>
    rw [subject?, found] at hs
    cases hs
    refine ⟨rfl, rfl, rfl, ?_⟩
    simp [timers, Ne.symm hne]
  | fired place earlier later subject generation due found timers =>
    rw [subject?, found] at hs
    cases hs
    obtain ⟨hentry, hpending⟩ := watch.cache.expire_other generation hne
    refine ⟨hentry, hpending, congrArg (·.get? other) (Cache.epochs_expire ..), ?_⟩
    simp [timers, Ne.symm hne]

end Step

section Run

variable {window : Nat} {actions : List Action}

theorem run_snoc (window : Nat) (actions : List Action) (action : Action) :
    run window (actions ++ [action]) = (run window actions).step action := List.foldl_append

/-- Time does not go back, and neither do generations. -/
theorem le_run_append (window : Nat) (actions more : List Action) :
    (run window actions).clock ≤ (run window (actions ++ more)).clock ∧
      (run window actions).cache.generation ≤ (run window (actions ++ more)).cache.generation := by
  induction more using List.reverseRecOn with
  | nil => simp
  | append_singleton more action ih =>
    have hstep := progress (run window (actions ++ more)) action
    rw [← List.append_assoc, run_snoc]
    exact ⟨Nat.le_trans ih.1 hstep.clock_le, Nat.le_trans ih.2 hstep.generation_le⟩

/-- Each invalidation has a generation that none had before it. -/
theorem generation_lt (window : Nat) (before : List Action) (id : Identity) (after : List Action) :
    (run window before).cache.generation <
      (run window (before ++ .invalidate id :: after)).cache.generation := by
  have hnext : (run window (before ++ [.invalidate id])).cache.generation =
      (run window before).cache.generation + 1 := by
    rw [run_snoc]
    rfl
  have hrest := (le_run_append window (before ++ [.invalidate id]) after).2
  rw [hnext, List.append_assoc, List.singleton_append] at hrest
  exact hrest

/-- If the same generation was given out after some actions and after more of them, there are no more. -/
theorem nil_of_generation_eq {before between after rest : List Action} {id other : Identity}
    (hs : .invalidate id :: after = between ++ .invalidate other :: rest)
    (hg : (run window before).cache.generation = (run window (before ++ between)).cache.generation) :
    between = [] ∧ after = rest := by
  cases between with
  | nil => exact ⟨rfl, (List.cons.inj hs).2⟩
  | cons first between =>
    obtain ⟨rfl, _⟩ := List.cons.inj hs
    exact absurd hg (Nat.ne_of_lt (generation_lt window before id between))

/-- The generation tells which invalidation of a run it was. -/
theorem eq_of_generation_eq {before after others rest : List Action} {id other : Identity}
    (hs : before ++ .invalidate id :: after = others ++ .invalidate other :: rest)
    (hg : (run window before).cache.generation = (run window others).cache.generation) :
    before = others ∧ after = rest := by
  rcases List.append_eq_append_iff.mp hs with ⟨between, rfl, hb⟩ | ⟨between, rfl, hb⟩
  · obtain ⟨rfl, hafter⟩ := nil_of_generation_eq hb hg
    exact ⟨(List.append_nil _).symm, hafter⟩
  · obtain ⟨rfl, hafter⟩ := nil_of_generation_eq hb hg.symm
    exact ⟨List.append_nil _, hafter.symm⟩

/-- A timer was started by the invalidation between these actions. It is not due before the window is over, and
it is pending as long as nothing unsettles its navigation. -/
structure StartedBy (window : Nat) (actions : List Action) (pending : Table Identity Nat) (timer : Timer)
    (before after : List Action) : Prop where
  split : actions = before ++ .invalidate timer.id :: after
  generation : (run window before).cache.generation = timer.generation
  due : ∀ due, timer.due = some due → (run window before).clock + min window Service.longestWait ≤ due
  latest : pending.get? timer.id = some timer.generation ↔ ∀ action ∈ after, ¬action.unsettles timer.id

theorem StartedBy.snoc {pending more : Table Identity Nat} {timer : Timer} {before after : List Action}
    {action : Action} (h : StartedBy window actions pending timer before after)
    (hp : more.get? timer.id = some timer.generation ↔
      pending.get? timer.id = some timer.generation ∧ ¬action.unsettles timer.id) :
    StartedBy window (actions ++ [action]) more timer before (after ++ [action]) where
  split := by rw [h.split, List.append_assoc, List.cons_append]
  generation := h.generation
  due := h.due
  latest := by rw [hp, h.latest, List.forall_mem_append, List.forall_mem_singleton]

/-- A timer that is set later than it was started is due later than that by the window. -/
theorem StartedBy.set {watch : Watch} {pending : Table Identity Nat} {id : Identity} {generation : Nat}
    {before after : List Action}
    (h : StartedBy window actions pending ⟨id, generation, none⟩ before after)
    (hr : watch = run window actions) (hw : watch.window = window) :
    StartedBy window actions pending ⟨id, generation, some watch.endOfWindow⟩ before after where
  split := h.split
  generation := h.generation
  due due hdue := by
    have hclock := (le_run_append window before (.invalidate id :: after)).1
    have hsplit : actions = before ++ .invalidate id :: after := h.split
    rw [← hsplit, ← hr] at hclock
    cases hdue
    rw [endOfWindow, hw]
    exact Nat.add_le_add_right hclock _
  latest := h.latest

/-- Each timer was started by an invalidation of its own, and what is pending are the timers of the latest
ones. -/
structure Kept (window : Nat) (actions : List Action) (watch : Watch) : Prop where
  reached : watch = run window actions
  wide : watch.window = window
  epochs : ∀ id generation, watch.cache.pending.get? id = some generation →
    watch.cache.epochs.get? id = some generation
  carried : ∀ id generation, watch.cache.pending.get? id = some generation →
    ∃ timer ∈ watch.timers, timer.id = id ∧ timer.generation = generation
  started : ∀ timer ∈ watch.timers, ∃ before after,
    StartedBy window actions watch.cache.pending timer before after
  distinct : (watch.timers.map Timer.generation).Nodup

section Kept

variable {watch after : Watch} {action : Action}

theorem kept_start (window : Nat) : Kept window [] (start window) where
  reached := rfl
  wide := rfl
  epochs := nofun
  carried := nofun
  started := nofun
  distinct := List.nodup_nil

theorem Kept.generation_lt (h : Kept window actions watch) {timer : Timer} (hm : timer ∈ watch.timers) :
    timer.generation < watch.cache.generation := by
  obtain ⟨before, rest, hstarted⟩ := h.started timer hm
  rw [h.reached, hstarted.split, ← hstarted.generation]
  exact Watch.generation_lt window before timer.id rest

/-- What is known of a timer stays true if the action unsettles nothing. -/
theorem Kept.still (h : Kept window actions watch) (hs : ∀ id, ¬action.unsettles id) {timer : Timer}
    (hm : timer ∈ watch.timers) {more : Table Identity Nat}
    (hp : more.get? timer.id = some timer.generation ↔
      watch.cache.pending.get? timer.id = some timer.generation) :
    ∃ before rest, StartedBy window (actions ++ [action]) more timer before rest := by
  obtain ⟨before, rest, hstarted⟩ := h.started timer hm
  refine ⟨before, rest ++ [action], hstarted.snoc ?_⟩
  rw [hp]
  exact ⟨fun hpending => ⟨hpending, hs timer.id⟩, And.left⟩

theorem Kept.went (h : Kept window actions watch) (hr : after = run window (actions ++ [action]))
    (hw : after.window = watch.window) (hp : after.cache.pending = watch.cache.pending)
    (he : after.cache.epochs = watch.cache.epochs) (ht : after.timers = watch.timers)
    (hs : ∀ id, ¬action.unsettles id) : Kept window (actions ++ [action]) after where
  reached := hr
  wide := hw.trans h.wide
  epochs id generation := by
    rw [hp, he]
    exact h.epochs id generation
  carried id generation := by
    rw [hp, ht]
    exact h.carried id generation
  started timer hm := by
    rw [ht] at hm
    rw [hp]
    exact h.still hs hm Iff.rfl
  distinct := by
    rw [ht]
    exact h.distinct

/-- The new timer replaces the one that was pending for its navigation. -/
theorem Kept.invalidated (h : Kept window actions watch) (id : Identity) :
    Kept window (actions ++ [.invalidate id]) (watch.step (.invalidate id)) where
  reached := by rw [run_snoc, h.reached]
  wide := h.wide
  epochs other generation := by
    simp only [step, Cache.invalidate, Table.get?_insert]
    split
    · exact fun hp => hp
    · exact h.epochs other generation
  carried other generation hp := by
    simp only [step, Cache.invalidate, Table.get?_insert] at hp
    split at hp
    · rename_i same
      cases hp
      exact ⟨_, List.mem_append_right _ (List.mem_singleton_self _), same.symm, rfl⟩
    · obtain ⟨timer, hm, hfields⟩ := h.carried other generation hp
      exact ⟨timer, List.mem_append_left _ hm, hfields⟩
  started timer hm := by
    rcases List.mem_append.mp hm with hm | hm
    · obtain ⟨before, rest, hstarted⟩ := h.started timer hm
      refine ⟨before, rest ++ [.invalidate id], hstarted.snoc ?_⟩
      simp only [step, Cache.invalidate, Table.get?_insert]
      split
      · rename_i same
        have hnew := Nat.ne_of_gt (h.generation_lt hm)
        exact ⟨fun hp => absurd (Option.some.inj hp) hnew, fun hp => absurd same.symm hp.2⟩
      · rename_i different
        exact ⟨fun hp => ⟨hp, fun same => different same.symm⟩, And.left⟩
    · cases List.mem_singleton.mp hm
      refine ⟨actions, [], rfl, ?_, fun due hdue => ?_, fun _ action ha => ?_, fun _ => ?_⟩
      · rw [← h.reached]
      · cases hdue
      · cases ha
      · exact Table.get?_insert_self ..
  distinct := by
    rw [step, List.map_append]
    refine List.nodup_append.mpr ⟨h.distinct, List.pairwise_singleton _ _, ?_⟩
    intro generation hg other ho same
    obtain ⟨timer, hm, rfl⟩ := List.mem_map.mp hg
    cases List.mem_singleton.mp ho
    exact absurd same (Nat.ne_of_lt (h.generation_lt hm))

theorem Kept.shutDown (h : Kept window actions watch) :
    Kept window (actions ++ [.shutdown]) (watch.step .shutdown) where
  reached := by rw [run_snoc, h.reached]
  wide := h.wide
  epochs := nofun
  carried := nofun
  started timer hm := by
    obtain ⟨before, rest, hstarted⟩ := h.started timer hm
    refine ⟨before, rest ++ [.shutdown], hstarted.snoc ⟨fun hp => ?_, fun hp => ?_⟩⟩
    · cases hp
    · exact absurd trivial hp.2
  distinct := h.distinct

theorem Kept.set (h : Kept window actions watch) (hr : after = run window (actions ++ [action]))
    (hs : ∀ id, ¬action.unsettles id) {earlier later : List Timer} {id : Identity} {generation : Nat}
    (ht : watch.timers = earlier ++ ⟨id, generation, none⟩ :: later)
    (ha : after =
      { watch with timers := earlier ++ ⟨id, generation, some watch.endOfWindow⟩ :: later }) :
    Kept window (actions ++ [action]) after := by
  have hgenerations : after.timers.map Timer.generation = watch.timers.map Timer.generation := by
    rw [ha, ht, List.map_append, List.map_append]
    rfl
  refine ⟨hr, ?_, ?_, ?_, ?_, ?_⟩
  · rw [ha]
    exact h.wide
  · rw [ha]
    exact h.epochs
  · intro other pending hp
    rw [ha] at hp ⊢
    obtain ⟨timer, hm, hfields⟩ := h.carried other pending hp
    rw [ht] at hm
    rcases List.mem_append.mp hm with hm | hm
    · exact ⟨timer, List.mem_append_left _ hm, hfields⟩
    · rcases List.mem_cons.mp hm with rfl | hm
      · exact ⟨_, List.mem_append_right _ List.mem_cons_self, hfields⟩
      · exact ⟨timer, List.mem_append_right _ (List.mem_cons_of_mem _ hm), hfields⟩
  · have hold : ∀ timer ∈ watch.timers, ∃ before rest,
        StartedBy window (actions ++ [action]) watch.cache.pending timer before rest :=
      fun timer hm => h.still hs hm Iff.rfl
    rw [ht] at hold
    rw [ha]
    intro timer hm
    rcases List.mem_append.mp hm with hm | hm
    · exact hold timer (List.mem_append_left _ hm)
    · rcases List.mem_cons.mp hm with rfl | hm
      · obtain ⟨before, rest, hstarted⟩ :=
          h.started ⟨id, generation, none⟩ (ht ▸ List.mem_append_right _ List.mem_cons_self)
        exact ⟨before, rest ++ [action], (hstarted.set h.reached h.wide).snoc
          ⟨fun hp => ⟨hp, hs id⟩, And.left⟩⟩
      · exact hold timer (List.mem_append_right _ (List.mem_cons_of_mem _ hm))
  · rw [hgenerations]
    exact h.distinct

theorem Kept.fired (h : Kept window actions watch) (hr : after = run window (actions ++ [action]))
    (hs : ∀ id, ¬action.unsettles id) {earlier later : List Timer} {timer : Timer}
    (ht : watch.timers = earlier ++ timer :: later)
    (ha : after =
      { watch with
        cache := watch.cache.expire timer.id timer.generation
        timers := earlier ++ later }) : Kept window (actions ++ [action]) after := by
  -- The timer that goes is the only one of its generation, so no other one loses what is pending.
  have hdistinct := h.distinct
  rw [ht, List.map_append, List.map_cons, List.nodup_middle, List.nodup_cons, ← List.map_append] at hdistinct
  obtain ⟨hgone, hrest⟩ := hdistinct
  have hmem : ∀ other, other ∈ watch.timers ↔ other = timer ∨ other ∈ earlier ++ later := by
    intro other
    rw [ht, List.mem_append, List.mem_cons, List.mem_append]
    exact or_left_comm
  subst ha
  refine ⟨hr, h.wide, ?_, ?_, ?_, hrest⟩
  · intro id generation hp
    rw [Cache.epochs_expire]
    exact h.epochs id generation ((Cache.pending_expire ..).mp hp).1
  · intro id generation hp
    obtain ⟨hpending, hother⟩ := (Cache.pending_expire ..).mp hp
    obtain ⟨found, hm, hfields⟩ := h.carried id generation hpending
    rcases (hmem found).mp hm with rfl | hm
    · exact absurd ⟨hfields.1.symm, hfields.2.symm⟩ hother
    · exact ⟨found, hm, hfields⟩
  · intro found hm
    have hne : ¬(found.id = timer.id ∧ found.generation = timer.generation) := fun same =>
      hgone (same.2 ▸ List.mem_map_of_mem hm)
    refine h.still hs ((hmem found).mpr (.inr hm)) ?_
    rw [Cache.pending_expire]
    exact ⟨And.left, fun hp => ⟨hp, hne⟩⟩

theorem Kept.next (h : Kept window actions watch) (action : Action) :
    Kept window (actions ++ [action]) (watch.step action) := by
  have hr : watch.step action = run window (actions ++ [action]) := by rw [run_snoc, h.reached]
  have hp := progress watch action
  generalize watch.step action = after at hr hp
  cases hp with
  | went clock entries loads settled => exact h.went hr rfl rfl rfl rfl settled
  | invalidated id => exact h.invalidated id
  | shutDown => exact h.shutDown
  | set place earlier later id generation found timers => exact h.set hr (fun _ => False.elim) timers rfl
  | fired place earlier later id generation due found timers reached =>
    exact h.fired hr (fun _ => False.elim) timers rfl

theorem kept_run (window : Nat) (actions : List Action) : Kept window actions (run window actions) := by
  induction actions using List.reverseRecOn with
  | nil => exact kept_start window
  | append_singleton actions action ih =>
    rw [run_snoc]
    exact ih.next action

/-- What is pending was started by the latest invalidation, and is not due before the window is over. -/
theorem Kept.latest_of_pending (h : Kept window actions watch) {timer : Timer} (hm : timer ∈ watch.timers)
    (hp : watch.cache.pending.get? timer.id = some timer.generation) :
    ∃ time, Latest window actions timer.id timer.generation time ∧
      ∀ due, timer.due = some due → time + min window Service.longestWait ≤ due := by
  obtain ⟨before, after, hstarted⟩ := h.started timer hm
  exact ⟨_, ⟨before, after, hstarted.split, hstarted.generation, rfl, hstarted.latest.mp hp⟩, hstarted.due⟩

theorem Kept.pending_of_latest (h : Kept window actions watch) {timer : Timer} {time : Nat}
    (hm : timer ∈ watch.timers) (hl : Latest window actions timer.id timer.generation time) :
    watch.cache.pending.get? timer.id = some timer.generation := by
  obtain ⟨before, after, hstarted⟩ := h.started timer hm
  obtain ⟨others, rest, hsplit, hgeneration, _, hquiet⟩ := hl
  have hsame := eq_of_generation_eq (hstarted.split.symm.trans hsplit)
    (hstarted.generation.trans hgeneration.symm)
  rw [← hsame.2] at hquiet
  exact hstarted.latest.mpr hquiet

end Kept

end Run

/-- An entry goes when the timer of the latest invalidation of its navigation runs out, and so never before the
window has passed since, or as much of it as a wait can last. All other timers change nothing. -/
theorem expires_after_window (window : Nat) (actions : List Action) :
    let watch := run window actions
    (∀ id generation, watch.cache.pending.get? id = some generation →
      watch.cache.epochs.get? id = some generation ∧
      ∃ timer ∈ watch.timers, timer.id = id ∧ timer.generation = generation ∧
        ∀ other ∈ watch.timers, other.generation = generation → other = timer) ∧
    (∀ before id between, (run window before).cache.generation <
      (run window (before ++ .invalidate id :: between)).cache.generation) ∧
    (∀ place timer due, watch.timers[place]? = some timer → timer.due = some due → due ≤ watch.clock →
      let after := watch.step (.fire place)
      (∃ time, Latest window actions timer.id timer.generation time ∧
        time + min window Service.longestWait ≤ watch.clock ∧
        after.cache = { watch.cache with
          pending := watch.cache.pending.erase timer.id
          entries := watch.cache.entries.erase timer.id }) ∨
      ((∀ time, ¬Latest window actions timer.id timer.generation time) ∧ after.cache = watch.cache)) ∧
    (∀ place, (∀ timer due, watch.timers[place]? = some timer → timer.due = some due → watch.clock < due) →
      watch.step (.fire place) = watch) ∧
    ∀ action id other, watch.subject? action = some id → other ≠ id →
      Untouched other watch (watch.step action) := by
  intro watch
  have h : Kept window actions watch := kept_run window actions
  refine ⟨fun id generation hp => ?_, generation_lt window, fun place timer due hfound hdue hreached => ?_,
    fun place hwaits => ?_, fun action id other hs hne => (progress watch action).untouched hs hne⟩
  · obtain ⟨timer, hm, hid, hgeneration⟩ := h.carried id generation hp
    refine ⟨h.epochs id generation hp, timer, hm, hid, hgeneration, fun other ho hsame => ?_⟩
    exact List.inj_on_of_nodup_map h.distinct ho hm (hsame.trans hgeneration.symm)
  · have hm : timer ∈ watch.timers := List.mem_of_getElem? hfound
    have hcache : (watch.step (.fire place)).cache = watch.cache.expire timer.id timer.generation := by
      obtain ⟨id, generation, _⟩ := timer
      cases hdue
      simp only [step, hfound, if_pos hreached]
    intro after
    by_cases hp : watch.cache.pending.get? timer.id = some timer.generation
    · obtain ⟨time, hlatest, hlater⟩ := h.latest_of_pending hm hp
      exact .inl ⟨time, hlatest, Nat.le_trans (hlater due hdue) hreached,
        hcache.trans (Cache.expire_counting hp)⟩
    · exact .inr ⟨fun time hlatest => hp (h.pending_of_latest hm hlatest),
        hcache.trans (Cache.expire_stale hp)⟩
  · simp only [step]
    split
    · rename_i id generation due hfound
      rw [if_neg (Nat.not_le_of_lt (hwaits _ due hfound rfl))]
    · rfl

/-- More milliseconds than a wait can last. -/
def longWindow : Nat := 1000000000000

/-- A navigation is put into the cache and invalidated, and its timer is set. -/
def invalidated (nav : Navigation) : List Action :=
  [.begin 0 nav.id, .finish 0 (.ok nav), .invalidate nav.id, .set 0]

/-- With such a window an entry goes before the window is over, and so it does from a service. -/
theorem expires_within_window :
    let nav := (Navigation.new (.ofSeed 1)).record (.created "main")
    let actions := invalidated nav ++ [.wait (longWindow - 1)]
    let watch := run longWindow actions
    let stored := ((Service.new ⟨longWindow, 4, 1⟩ .standard 0 false).save nav).2.2
    let service := (stored.fetch nav.id).2.invalidate nav.id
    (Latest longWindow actions nav.id 0 0 ∧ watch.clock < 0 + longWindow ∧
      watch.cache.contains nav.id = true ∧ (watch.step (.fire 0)).cache.contains nav.id = false) ∧
    service.clock = 0 ∧ service.cache.contains nav.id = true ∧
      (service.advance (longWindow - 1)).cache.contains nav.id = false := by
  intro nav actions watch stored service
  have hquiet : ∀ action ∈ [Action.set 0, .wait (longWindow - 1)], ¬action.unsettles nav.id := by
    simp [Action.unsettles]
  have hlatest : Latest longWindow actions nav.id 0 0 :=
    ⟨[.begin 0 nav.id, .finish 0 (.ok nav)], _, rfl, by decide +kernel, by decide +kernel, hquiet⟩
  exact ⟨⟨hlatest, by decide +kernel, by decide +kernel, by decide +kernel⟩,
    by decide +kernel, by decide +kernel, by decide +kernel⟩

end Watch

end Wayfinding
