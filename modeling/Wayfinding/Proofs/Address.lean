import Wayfinding.Path

namespace Wayfinding.Path

/-- The chain of IDs that leads to the level at a path. -/
def chain? (path : String) : Option (List String) :=
  if path = "" then some [] else segments? path

/-- The path of a chain of IDs. -/
def ofChain (ids : List String) : String := ids.foldl join ""

theorem ofChain_concat (ids : List String) (id : String) : ofChain (ids ++ [id]) = join (ofChain ids) id := by
  simp [ofChain]

@[simp] theorem chain?_empty : chain? "" = some [] := rfl

theorem segments?_empty : segments? "" = none := by decide

theorem chain?_of_segments {path : String} {ids : List String} (h : segments? path = some ids) :
    chain? path = some ids := by
  have hp : path ≠ "" := by
    intro he
    rw [he, segments?_empty] at h
    cases h
  simp [chain?, hp, h]

theorem pieces_of_not_mem {cs : List Char} (h : separator ∉ cs) : pieces cs = [cs] := by
  induction cs with
  | nil => rfl
  | cons c cs ih =>
    simp only [List.mem_cons, not_or] at h
    simp [pieces, ih h.2, Ne.symm h.1]

theorem pieces_append (cs ds : List Char) :
    pieces (cs ++ separator :: ds) = pieces cs ++ pieces ds := by
  induction cs with
  | nil => simp [pieces]
  | cons c cs ih =>
    by_cases hc : c = separator
    · simp [pieces, hc, ih]
    · cases hp : pieces cs with
      | nil => exact absurd hp (pieces_ne_nil cs)
      | cons piece rest => simp [pieces, hc, ih, hp]

theorem pieces_join {parent id : String} (hp : parent ≠ "") (hid : separator ∉ id.toList) :
    pieces (join parent id).toList = pieces parent.toList ++ [id.toList] := by
  simp only [join, hp, if_false, String.toList_append, String.toList_singleton, List.append_assoc,
    List.singleton_append]
  rw [pieces_append, pieces_of_not_mem hid]

theorem join_ne_empty {parent id : String} (hid : id ≠ "") : join parent id ≠ "" := by
  intro he
  unfold join at he
  split at he
  · exact hid he
  · have := congrArg String.toList he
    simp at this

/-- Joining valid IDs to a path appends them to its segments. -/
theorem segments?_foldl_join {rest done : List String} {parent : String} (hne : parent ≠ "")
    (hp : (pieces parent.toList).map String.ofList = done) (hd : ∀ id ∈ done, ValidId id)
    (hr : ∀ id ∈ rest, ValidId id) : segments? (rest.foldl join parent) = some (done ++ rest) := by
  induction rest generalizing parent done with
  | nil =>
    have hn : "" ∉ done := fun he => (hd _ he).1 rfl
    simp [segments?, hp, hn]
  | cons id rest ih =>
    obtain ⟨hid, hr⟩ := List.forall_mem_cons.mp hr
    have hjoined : (pieces (join parent id).toList).map String.ofList = done ++ [id] := by
      rw [pieces_join hne hid.2]
      simp [hp]
    have hdone : ∀ other ∈ done ++ [id], ValidId other := by
      intro other ho
      rcases List.mem_append.mp ho with ho | ho
      · exact hd other ho
      · rw [List.mem_singleton.mp ho]
        exact hid
    simpa using ih (join_ne_empty hid.1) hjoined hdone hr

/-- A chain of valid IDs is read back from its path. -/
theorem segments?_ofChain {ids : List String} (hne : ids ≠ []) (hv : ∀ id ∈ ids, ValidId id) :
    segments? (ofChain ids) = some ids := by
  cases ids with
  | nil => exact absurd rfl hne
  | cons id rest =>
    obtain ⟨hid, hr⟩ := List.forall_mem_cons.mp hv
    have hpieces : (pieces id.toList).map String.ofList = [id] := by
      rw [pieces_of_not_mem hid.2]
      simp
    simpa [ofChain, join] using
      segments?_foldl_join hid.1 hpieces (by simpa using hid) hr

theorem intercalate_pieces (cs : List Char) : [separator].intercalate (pieces cs) = cs := by
  induction cs with
  | nil => rfl
  | cons c cs ih =>
    cases hp : pieces cs with
    | nil => exact absurd hp (pieces_ne_nil cs)
    | cons piece rest =>
      rw [hp] at ih
      by_cases hc : c = separator
      · have hsplit : pieces (c :: cs) = [] :: piece :: rest := by simp [pieces, hc, hp]
        rw [hsplit, List.intercalate_cons_cons, ih, hc]
        rfl
      · have hsplit : pieces (c :: cs) = (c :: piece) :: rest := by simp [pieces, hc, hp]
        rw [hsplit, ← ih]
        cases rest with
        | nil => simp
        | cons next rest => simp [List.intercalate_cons_cons]

theorem separator_not_mem_pieces (cs : List Char) : ∀ piece ∈ pieces cs, separator ∉ piece := by
  induction cs with
  | nil => simp [pieces]
  | cons c cs ih =>
    cases hp : pieces cs with
    | nil => exact absurd hp (pieces_ne_nil cs)
    | cons first rest =>
      rw [hp] at ih
      obtain ⟨hfirst, hrest⟩ := List.forall_mem_cons.mp ih
      by_cases hc : c = separator
      · simpa [pieces, hc, hp] using ih
      · simpa [pieces, hc, hp, Ne.symm hc, hfirst] using hrest

theorem pieces_of_segments {path : String} {ids : List String} (h : segments? path = some ids) :
    pieces path.toList = ids.map String.toList ∧ "" ∉ ids := by
  simp only [segments?] at h
  split at h
  · cases h
  · rename_i nonempty
    cases h
    exact ⟨by simp, nonempty⟩

theorem ne_nil_of_segments {path : String} {ids : List String} (h : segments? path = some ids) : ids ≠ [] := by
  rintro rfl
  exact pieces_ne_nil _ (pieces_of_segments h).1

theorem valid_of_segments {path : String} {ids : List String} (h : segments? path = some ids) :
    ∀ id ∈ ids, ValidId id := by
  obtain ⟨hpieces, hne⟩ := pieces_of_segments h
  intro id hi
  refine ⟨fun he => hne (he ▸ hi), separator_not_mem_pieces path.toList _ ?_⟩
  rw [hpieces]
  exact List.mem_map_of_mem hi

theorem ofChain_of_segments {path : String} {ids : List String} (h : segments? path = some ids) :
    ofChain ids = path := by
  have hback := segments?_ofChain (ne_nil_of_segments h) (valid_of_segments h)
  rw [← String.toList_inj, ← intercalate_pieces (ofChain ids).toList, ← intercalate_pieces path.toList,
    (pieces_of_segments hback).1, (pieces_of_segments h).1]

/-- Different paths have different chains. -/
theorem ofChain_of_chain {path : String} {ids : List String} (h : chain? path = some ids) :
    ofChain ids = path := by
  unfold chain? at h
  split at h
  · rename_i hp
    cases h
    exact hp.symm
  · exact ofChain_of_segments h

theorem chain?_ofChain {ids : List String} (hv : ∀ id ∈ ids, ValidId id) : chain? (ofChain ids) = some ids := by
  cases ids with
  | nil => rfl
  | cons id rest => exact chain?_of_segments (segments?_ofChain (by simp) hv)

theorem valid_of_chain {path : String} {ids : List String} (h : chain? path = some ids) :
    ∀ id ∈ ids, ValidId id := by
  unfold chain? at h
  split at h
  · cases h
    exact List.forall_mem_nil _
  · exact valid_of_segments h

/-- Joining a valid ID to a path puts it at the end of the chain. -/
theorem segments?_join {parent id : String} {parents : List String} (h : chain? parent = some parents)
    (hid : ValidId id) : segments? (join parent id) = some (parents ++ [id]) := by
  have hvalid : ∀ other ∈ parents ++ [id], ValidId other :=
    List.forall_mem_append.mpr ⟨valid_of_chain h, by simpa using hid⟩
  rw [← ofChain_of_chain h, ← ofChain_concat]
  exact segments?_ofChain (by simp) hvalid

theorem cutLast?_of_not_mem {cs : List Char} (h : separator ∉ cs) : cutLast? cs = none := by
  induction cs with
  | nil => rfl
  | cons c cs ih =>
    simp only [List.mem_cons, not_or] at h
    simp [cutLast?, ih h.2, Ne.symm h.1]

theorem cutLast?_append {before after : List Char} (h : separator ∉ after) :
    cutLast? (before ++ separator :: after) = some (before, after) := by
  induction before with
  | nil => simp [cutLast?, cutLast?_of_not_mem h]
  | cons c before ih => simp [cutLast?, ih]

theorem splitLast_of_not_mem {path : String} (h : separator ∉ path.toList) : splitLast path = ("", path) := by
  rw [splitLast, cutLast?_of_not_mem h]

/-- What is before the last separator may be any text, also one with empty segments. -/
theorem splitLast_append (parent : String) {id : String} (h : separator ∉ id.toList) :
    splitLast (parent ++ "." ++ id) = (parent, id) := by
  have hcut : (parent ++ "." ++ id).toList = parent.toList ++ separator :: id.toList := by
    simp [separator]
  rw [splitLast, hcut, cutLast?_append h]
  simp

theorem splitLast_join (parent : String) {id : String} (h : separator ∉ id.toList) :
    splitLast (join parent id) = (parent, id) := by
  unfold join
  split
  · rename_i hp
    rw [hp, splitLast_of_not_mem h]
  · exact splitLast_append parent h

theorem cut_cases (path : String) :
    separator ∉ path.toList ∨ ∃ parent id, separator ∉ id.toList ∧ path = parent ++ "." ++ id := by
  by_cases h : separator ∈ path.toList
  · obtain ⟨after, before, hreverse, hafter⟩ := List.eq_append_cons_of_mem (List.mem_reverse.mpr h)
    refine .inr ⟨.ofList before.reverse, .ofList after.reverse, by simpa using hafter, ?_⟩
    rw [← String.toList_inj, ← List.reverse_inj, hreverse]
    simp [separator]
  · exact .inl h

/-- A path that was cut can be joined again, unless its only separator comes first: joining an ID to the root path
writes none. -/
theorem join_splitLast (path : String) : separator ∉ (splitLast path).2.toList ∧
    (join (splitLast path).1 (splitLast path).2 = path ∨ path = "." ++ (splitLast path).2) := by
  rcases cut_cases path with h | ⟨parent, id, hid, rfl⟩
  · rw [splitLast_of_not_mem h]
    exact ⟨h, .inl rfl⟩
  · rw [splitLast_append parent hid]
    by_cases hp : parent = ""
    · exact ⟨hid, .inr (by simp [hp])⟩
    · exact ⟨hid, .inl (if_neg hp)⟩

/-- The IDs of a path are those of its parent level and then the one behind the last separator. -/
theorem splitLast_of_segments {path : String} {ids : List String} (h : segments? path = some ids) :
    ∃ parents last, ids = parents ++ [last] ∧ chain? (splitLast path).1 = some parents ∧
      (splitLast path).2 = last := by
  obtain ⟨parents, last, hids⟩ := (List.eq_nil_or_concat ids).resolve_left (ne_nil_of_segments h)
  rw [List.concat_eq_append] at hids
  subst hids
  obtain ⟨hparents, hlast⟩ := List.forall_mem_append.mp (valid_of_segments h)
  have hid : separator ∉ last.toList := (hlast last (by simp)).2
  have hsplit : splitLast path = (ofChain parents, last) := by
    rw [← ofChain_of_segments h, ofChain_concat, splitLast_join _ hid]
  refine ⟨parents, last, rfl, ?_, congrArg Prod.snd hsplit⟩
  rw [hsplit]
  exact chain?_ofChain hparents

end Wayfinding.Path
