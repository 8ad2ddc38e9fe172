namespace Wayfinding

/-- A text for each of finitely many locales. -/
structure LocaleMap where
  entries : List (String × String)
  ascending : entries.Pairwise fun a b => a.1 < b.1
deriving DecidableEq

namespace LocaleMap

/-- The locale whose text stands in for those that are missing. -/
def defaultLocale : String := ""

def empty : LocaleMap := ⟨[], .nil⟩

/-- The entries with one more in its place; it displaces one of the same locale. -/
def insertEntry (locale text : String) : List (String × String) → List (String × String)
  | [] => [(locale, text)]
  | entry :: rest =>
    if locale < entry.1 then (locale, text) :: entry :: rest
    else if locale = entry.1 then (locale, text) :: rest
    else entry :: insertEntry locale text rest

theorem mem_insertEntry {locale text : String} {entries : List (String × String)}
    {entry : String × String} (h : entry ∈ insertEntry locale text entries) :
    entry = (locale, text) ∨ entry ∈ entries := by
  induction entries with
  | nil => simpa [insertEntry] using h
  | cons first rest ih =>
    unfold insertEntry at h
    split at h
    · simpa using h
    · split at h
      · rcases List.mem_cons.mp h with h | h
        · exact .inl h
        · exact .inr (List.mem_cons_of_mem _ h)
      · rcases List.mem_cons.mp h with h | h
        · exact .inr (h ▸ List.mem_cons_self)
        · exact (ih h).imp_right (List.mem_cons_of_mem _)

theorem ascending_insertEntry (locale text : String) {entries : List (String × String)}
    (h : entries.Pairwise fun a b => a.1 < b.1) :
    (insertEntry locale text entries).Pairwise fun a b => a.1 < b.1 := by
  induction entries with
  | nil => simp [insertEntry]
  | cons first rest ih =>
    obtain ⟨before, tail⟩ := List.pairwise_cons.mp h
    unfold insertEntry
    split
    · rename_i lower
      refine List.pairwise_cons.mpr ⟨?_, h⟩
      intro entry mem
      rcases List.mem_cons.mp mem with rfl | mem
      · exact lower
      · exact String.lt_trans lower (before entry mem)
    · split
      · rename_i same
        refine List.pairwise_cons.mpr ⟨?_, tail⟩
        intro entry mem
        exact same ▸ before entry mem
      · rename_i notLower different
        refine List.pairwise_cons.mpr ⟨?_, ih tail⟩
        intro entry mem
        rcases mem_insertEntry mem with rfl | mem
        · apply Decidable.byContradiction
          intro notHigher
          exact different (String.le_antisymm (String.not_lt.mp notHigher) (String.not_lt.mp notLower))
        · exact before entry mem

def insert (texts : LocaleMap) (locale text : String) : LocaleMap :=
  ⟨insertEntry locale text texts.entries, ascending_insertEntry locale text texts.ascending⟩

/-- The map of a list of entries; of two for one locale the later counts. -/
def ofList (entries : List (String × String)) : LocaleMap :=
  entries.foldl (fun texts entry => texts.insert entry.1 entry.2) empty

def get? (texts : LocaleMap) (locale : String) : Option String := texts.entries.lookup locale

/-- The text for this locale, or else the one of the default locale. -/
def localized? (texts : LocaleMap) (locale : String) : Option String :=
  (texts.get? locale).or (texts.get? defaultLocale)

end LocaleMap

end Wayfinding
