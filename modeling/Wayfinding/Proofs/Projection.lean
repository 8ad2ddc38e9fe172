import Mathlib.Data.List.Induction
import Mathlib.Data.List.Nodup
import Wayfinding.Lookup

namespace Wayfinding

/-- The name and the identity in an envelope that tells of the creation of a navigation. -/
def Envelope.creation? (envelope : Envelope) : Option (String × Identity) :=
  match envelope.event with
  | .created name =>
    if envelope.aggregateType = navigationType then some (name, envelope.id) else none
  | _ => none

namespace Lookup

/-- The creations that envelopes tell of, in the order of the envelopes. -/
def creations (envelopes : List Envelope) : List (String × Identity) :=
  envelopes.filterMap Envelope.creation?

def distinctNames (known : List (String × Identity)) : List String := (known.map Prod.fst).eraseDups

/-- The error about a creation, if another navigation was the first of its name. -/
def dispute? (known : List (String × Identity)) (creation : String × Identity) : Option ProjectionError :=
  (known.lookup creation.1).bind fun first =>
    if first = creation.2 then none else some (.duplicateName creation.1 first creation.2)

/-- One error for each creation that is not of the first navigation of its name. -/
def disputes (known : List (String × Identity)) : List ProjectionError := known.filterMap (dispute? known)

/-- The index knows the first navigation of each name among these creations, and no other names. -/
structure Indexes (lookup : Lookup) (known : List (String × Identity)) : Prop where
  first : ∀ name, lookup.name? name = known.lookup name
  size : lookup.size = (distinctNames known).length

section Creations

variable {known : List (String × Identity)} {name : String} {id : Identity}

theorem lookup_singleton (name other : String) (id : Identity) :
    [(name, id)].lookup other = if other = name then some id else none := by
  rw [List.lookup_cons]
  split
  · rename_i same
    rw [if_pos (beq_iff_eq.mp same)]
  · rename_i different
    rw [if_neg (beq_eq_false_iff_ne.mp different)]
    rfl

theorem lookup_isSome : (known.lookup name).isSome = true ↔ name ∈ known.map Prod.fst := by
  simp [List.lookup_isSome_iff]

theorem mem_of_lookup (h : known.lookup name = some id) : (name, id) ∈ known := by
  obtain ⟨before, after, rfl, _⟩ := List.lookup_eq_some_iff.mp h
  exact List.mem_append_right _ List.mem_cons_self

theorem lookup_of_mem (h : (name, id) ∈ known) : ∃ first, known.lookup name = some first :=
  Option.isSome_iff_exists.mp (lookup_isSome.mpr (List.mem_map_of_mem h))

theorem lookup_extended (h : known.lookup name = some id) (more : List (String × Identity)) :
    (known ++ more).lookup name = some id := by
  rw [List.lookup_append, h, Option.some_or]

theorem distinctNames_snoc (known : List (String × Identity)) (creation : String × Identity) :
    (distinctNames (known ++ [creation])).length = (distinctNames known).length +
      if (known.lookup creation.1).isSome then 0 else 1 := by
  unfold distinctNames
  rw [List.map_append, List.eraseDups_append, List.length_append]
  by_cases h : creation.1 ∈ known.map Prod.fst
  · rw [if_pos (lookup_isSome.mpr h)]
    simp [List.removeAll, h]
  · rw [if_neg (mt lookup_isSome.mp h)]
    simp [List.removeAll, h, List.eraseDups_cons]

theorem dispute?_extended {creation : String × Identity} (h : creation ∈ known)
    (more : List (String × Identity)) : dispute? (known ++ more) creation = dispute? known creation := by
  obtain ⟨first, hfirst⟩ := lookup_of_mem h
  simp only [dispute?, lookup_extended hfirst more, hfirst]

/-- Every error names the first navigation of the name and another one. -/
theorem mem_disputes {error : ProjectionError} (h : error ∈ disputes known) : ∃ name first second,
    error = .duplicateName name first second ∧ known.lookup name = some first ∧ (name, second) ∈ known ∧
      first ≠ second := by
  obtain ⟨⟨name, second⟩, hmem, herror⟩ := List.mem_filterMap.mp h
  obtain ⟨first, hfirst, hdispute⟩ := Option.bind_eq_some_iff.mp herror
  split at hdispute
  · cases hdispute
  · rename_i different
    cases hdispute
    exact ⟨name, first, second, rfl, hfirst, hmem, different⟩

theorem disputes_append (known more : List (String × Identity)) :
    disputes (known ++ more) = disputes known ++ more.filterMap (dispute? (known ++ more)) := by
  unfold disputes
  rw [List.filterMap_append]
  congr 1
  exact List.filterMap_congr fun creation hc => dispute?_extended hc more

/-- If no navigation was created twice, there is an error for each creation but the first of each name. -/
theorem length_disputes (h : (known.map Prod.snd).Nodup) :
    (disputes known).length + (distinctNames known).length = known.length := by
  induction known using List.reverseRecOn with
  | nil => rfl
  | append_singleton known creation ih =>
    rw [List.map_append] at h
    obtain ⟨hearlier, _, hapart⟩ := List.nodup_append.mp h
    have hcount := ih hearlier
    rw [distinctNames_snoc, disputes_append, List.length_append, List.length_append, List.length_singleton]
    cases hk : known.lookup creation.1 with
    | none =>
      have hnew : dispute? (known ++ [creation]) creation = none := by
        simp [dispute?, List.lookup_append, hk, lookup_singleton creation.1 creation.1 creation.2]
      rw [List.filterMap_cons_none hnew]
      simp only [List.filterMap_nil, List.length_nil, Option.isSome_none, Bool.false_eq_true, if_false]
      omega
    | some first =>
      have hne : first ≠ creation.2 := fun same =>
        hapart first (List.mem_map_of_mem (mem_of_lookup hk)) creation.2 (List.mem_singleton_self _) same
      have hdispute : dispute? (known ++ [creation]) creation =
          some (.duplicateName creation.1 first creation.2) := by
        rw [dispute?, lookup_extended hk, Option.bind_some, if_neg hne]
      rw [List.filterMap_cons_some hdispute]
      simp only [List.filterMap_nil, List.length_singleton, Option.isSome_some, if_true]
      omega

theorem disputes_eq_nil (h : (known.map Prod.fst).Nodup) : disputes known = [] := by
  refine List.eq_nil_iff_forall_not_mem.mpr fun error he => ?_
  obtain ⟨name, first, second, _, hfirst, hsecond, different⟩ := mem_disputes he
  have hsame := List.inj_on_of_nodup_map h (mem_of_lookup hfirst) hsecond rfl
  exact different (congrArg Prod.snd hsame)

end Creations

section Project

variable {lookup : Lookup} {known : List (String × Identity)} {envelope : Envelope}
  {creation : String × Identity}

theorem creation?_eq_some : envelope.creation? = some creation ↔
    envelope.aggregateType = Envelope.navigationType ∧ envelope.event = .created creation.1 ∧
      envelope.id = creation.2 := by
  unfold Envelope.creation?
  constructor
  · intro h
    split at h
    · rename_i name hevent
      split at h
      · rename_i htype
        cases h
        exact ⟨htype, hevent, rfl⟩
      · cases h
    · cases h
  · rintro ⟨htype, hevent, hid⟩
    rw [hevent, htype, hid]
    rfl

/-- The index looks at the creations, and passes over everything else. -/
theorem accepts_filter (envelope : Envelope) : filter.accepts envelope = envelope.creation?.isSome := by
  unfold filter EventFilter.accepts Envelope.creation? Envelope.name
  cases envelope.event <;> by_cases h : envelope.aggregateType = Envelope.navigationType <;>
    simp [EventFilter.named, Event.name, h]

theorem indexes_empty : Indexes empty [] := ⟨fun _ => rfl, rfl⟩

/-- A creation is taken into account: its name is new and is put down, or the name has its first navigation. -/
theorem Indexes.project (h : Indexes lookup known) (hc : envelope.creation? = some creation) :
    Indexes (lookup.project envelope).1 (known ++ [creation]) ∧
      (lookup.project envelope).2 = dispute? (known ++ [creation]) creation := by
  obtain ⟨name, id⟩ := creation
  obtain ⟨_, hevent, rfl⟩ := creation?_eq_some.mp hc
  have hfirst := h.first name
  have hlookup : ∀ other, (known ++ [(name, envelope.id)]).lookup other =
      (known.lookup other).or (if other = name then some envelope.id else none) := by
    intro other
    rw [List.lookup_append, lookup_singleton]
  have hsize := distinctNames_snoc known (name, envelope.id)
  unfold Lookup.project
  cases hknown : known.lookup name with
  | none =>
    rw [hknown] at hfirst hsize
    simp only [hevent, hfirst]
    refine ⟨⟨fun other => ?_, ?_⟩, ?_⟩
    · rw [hlookup, name?, Table.get?_insert]
      split
      · rename_i same
        rw [same, hknown]
        rfl
      · rw [Option.or_none]
        exact h.first other
    · have hnew : lookup.names.contains name = false := by
        rw [name?] at hfirst
        rw [Table.contains, hfirst]
        rfl
      have hgrown : (lookup.names.insert name envelope.id).size = lookup.size + 1 := by
        rw [Table.size_insert, hnew]
        rfl
      rw [hsize, ← h.size]
      exact hgrown
    · simp [dispute?, hlookup, hknown]
  | some first =>
    rw [hknown] at hfirst hsize
    have hsame : Indexes lookup (known ++ [(name, envelope.id)]) := by
      refine ⟨fun other => ?_, ?_⟩
      · rw [hlookup, h.first]
        split
        · rename_i same
          rw [same, hknown]
          rfl
        · rw [Option.or_none]
      · rw [hsize, h.size]
        rfl
    have hdispute : dispute? (known ++ [(name, envelope.id)]) (name, envelope.id) =
        if first = envelope.id then none else some (.duplicateName name first envelope.id) := by
      simp [dispute?, hlookup, hknown]
    simp only [hevent, hfirst, hdispute]
    split
    · exact ⟨hsame, rfl⟩
    · exact ⟨hsame, rfl⟩

theorem project_known (hc : envelope.creation? = some creation)
    (hk : (lookup.name? creation.1).isSome = true) : (lookup.project envelope).1 = lookup := by
  obtain ⟨_, hevent, _⟩ := creation?_eq_some.mp hc
  obtain ⟨first, hfirst⟩ := Option.isSome_iff_exists.mp hk
  simp only [project, hevent, hfirst]
  split <;> rfl

end Project

section Log

variable {lookup : Lookup} {known : List (String × Identity)}

theorem catchUp_other {envelope : Envelope} (h : envelope.creation? = none) (rest : List Envelope) :
    lookup.catchUp (envelope :: rest) = lookup.catchUp rest := by
  rw [catchUp, accepts_filter, h]
  rfl

theorem catchUp_creation {envelope : Envelope} {creation : String × Identity}
    (h : envelope.creation? = some creation) (rest : List Envelope) :
    lookup.catchUp (envelope :: rest) = (((lookup.project envelope).1.catchUp rest).1,
      (lookup.project envelope).2.toList ++ ((lookup.project envelope).1.catchUp rest).2) := by
  rw [catchUp, accepts_filter, h]
  rfl

theorem catchUp_append (lookup : Lookup) (envelopes more : List Envelope) :
    lookup.catchUp (envelopes ++ more) = (((lookup.catchUp envelopes).1.catchUp more).1,
      (lookup.catchUp envelopes).2 ++ ((lookup.catchUp envelopes).1.catchUp more).2) := by
  induction envelopes generalizing lookup with
  | nil => rfl
  | cons envelope rest ih =>
    rw [List.cons_append]
    cases hc : envelope.creation? with
    | none => rw [catchUp_other hc, catchUp_other hc, ih]
    | some creation =>
      rw [catchUp_creation hc, catchUp_creation hc, ih]
      simp only [List.append_assoc]

theorem Indexes.catchUp (h : Indexes lookup known) (envelopes : List Envelope) :
    Indexes (lookup.catchUp envelopes).1 (known ++ creations envelopes) ∧
      (lookup.catchUp envelopes).2 =
        (creations envelopes).filterMap (dispute? (known ++ creations envelopes)) := by
  induction envelopes generalizing lookup known with
  | nil =>
    refine ⟨?_, rfl⟩
    rw [creations, List.filterMap_nil, List.append_nil]
    exact h
  | cons envelope rest ih =>
    unfold creations at ih ⊢
    cases hc : envelope.creation? with
    | none =>
      rw [catchUp_other hc, List.filterMap_cons_none hc]
      exact ih h
    | some creation =>
      obtain ⟨hproject, herror⟩ := h.project hc
      obtain ⟨hrest, herrors⟩ := ih hproject
      rw [List.append_assoc, List.singleton_append] at hrest herrors
      rw [catchUp_creation hc, List.filterMap_cons_some hc]
      refine ⟨hrest, ?_⟩
      have hstable := dispute?_extended (List.mem_append_right known (List.mem_singleton_self creation))
        (rest.filterMap Envelope.creation?)
      rw [List.append_assoc, List.singleton_append] at hstable
      rw [herrors, herror, List.filterMap_cons, hstable]
      cases dispute? (known ++ [creation]) creation <;> rfl

theorem catchUp_empty (envelopes : List Envelope) :
    Indexes (empty.catchUp envelopes).1 (creations envelopes) ∧
      (empty.catchUp envelopes).2 = disputes (creations envelopes) := indexes_empty.catchUp envelopes

theorem catchUp_known {again : List Envelope} (h : ∀ envelope ∈ again, ∀ creation,
    envelope.creation? = some creation → (lookup.name? creation.1).isSome = true) :
    (lookup.catchUp again).1 = lookup := by
  induction again with
  | nil => rfl
  | cons envelope rest ih =>
    obtain ⟨hfirst, hrest⟩ := List.forall_mem_cons.mp h
    cases hc : envelope.creation? with
    | none =>
      rw [catchUp_other hc]
      exact ih hrest
    | some creation =>
      rw [catchUp_creation hc, project_known hc (hfirst creation hc)]
      exact ih hrest

theorem mem_creations_congr {envelopes other : List Envelope}
    (h : ∀ envelope, envelope ∈ other ↔ envelope ∈ envelopes) (creation : String × Identity) :
    creation ∈ creations other ↔ creation ∈ creations envelopes := by
  simp [creations, h]

end Log

/-- Whatever was in the log, the index knows the first creation under each name and nothing else, and there is one
error for each creation that is not of the first navigation of its name, in order. -/
theorem catchUp_law (envelopes : List Envelope) :
    let known := creations envelopes
    let after := empty.catchUp envelopes
    (∀ name, after.1.name? name = known.lookup name) ∧ after.1.size = (distinctNames known).length ∧
    after.2 = known.filterMap (dispute? known) ∧
    (∀ more, empty.catchUp (envelopes ++ more) =
      ((after.1.catchUp more).1, after.2 ++ (after.1.catchUp more).2)) ∧
    (∀ again : List Envelope, (∀ envelope ∈ again, envelope ∈ envelopes) →
      (after.1.catchUp again).1 = after.1) ∧
    ∀ other : List Envelope, (∀ envelope, envelope ∈ other ↔ envelope ∈ envelopes) →
      (∀ name, ((empty.catchUp other).1.name? name).isSome = (after.1.name? name).isSome) ∧
      ((∀ name id other, (name, id) ∈ known → (name, other) ∈ known → id = other) →
        ∀ name, (empty.catchUp other).1.name? name = after.1.name? name) := by
  intro known after
  have hafter : Indexes after.1 known ∧ after.2 = disputes known := catchUp_empty envelopes
  refine ⟨hafter.1.first, hafter.1.size, hafter.2, fun more => catchUp_append empty envelopes more, ?_, ?_⟩
  · intro again hagain
    refine catchUp_known fun envelope he creation hc => ?_
    have hmem : creation ∈ known := List.mem_filterMap.mpr ⟨envelope, hagain envelope he, hc⟩
    rw [hafter.1.first]
    exact lookup_isSome.mpr (List.mem_map_of_mem hmem)
  · intro other hsame
    have hother := (catchUp_empty other).1.first
    have hmem := mem_creations_congr hsame
    have hnames : ∀ name, ((empty.catchUp other).1.name? name).isSome = (after.1.name? name).isSome := by
      intro name
      rw [hother, hafter.1.first, Bool.eq_iff_iff, lookup_isSome, lookup_isSome]
      simp [hmem, known]
    refine ⟨hnames, fun hunique name => ?_⟩
    cases ho : (empty.catchUp other).1.name? name with
    | none =>
      have hnone := hnames name
      rw [ho] at hnone
      exact (Option.isNone_iff_eq_none.mp (by simpa using hnone.symm)).symm
    | some second =>
      have hfound := hnames name
      rw [ho] at hfound
      obtain ⟨first, hfirst⟩ := Option.isSome_iff_exists.mp hfound.symm
      rw [hother] at ho
      have hsecond := (hmem _).mp (mem_of_lookup ho)
      have hknown := hfirst
      rw [hafter.1.first] at hknown
      rw [hfirst, hunique name first second (mem_of_lookup hknown) hsecond]

end Lookup

end Wayfinding
