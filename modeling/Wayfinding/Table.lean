namespace Wayfinding

/-- A value for each of finitely many keys. -/
structure Table (κ : Type) (α : Type) where
  rows : List (κ × α)
  nodup : (rows.map Prod.fst).Nodup

namespace Table

variable {κ α : Type} [DecidableEq κ]

def empty : Table κ α := ⟨[], .nil⟩

def get? (table : Table κ α) (key : κ) : Option α :=
  (table.rows.find? fun row => row.1 = key).map Prod.snd

def contains (table : Table κ α) (key : κ) : Bool := (table.get? key).isSome

def size (table : Table κ α) : Nat := table.rows.length

def erase (table : Table κ α) (key : κ) : Table κ α :=
  ⟨table.rows.filter fun row => row.1 ≠ key, table.nodup.sublist (List.filter_sublist.map _)⟩

def insert (table : Table κ α) (key : κ) (value : α) : Table κ α :=
  ⟨(key, value) :: (table.erase key).rows, by
    refine List.nodup_cons.mpr ⟨?_, (table.erase key).nodup⟩
    simp [erase]⟩

@[simp] theorem get?_insert_self (table : Table κ α) (key : κ) (value : α) :
    (table.insert key value).get? key = some value := by
  simp [get?, insert]

theorem get?_erase_self (table : Table κ α) (key : κ) : (table.erase key).get? key = none := by
  simp [get?, erase]

theorem get?_erase_ne (table : Table κ α) {key other : κ} (h : other ≠ key) :
    (table.erase key).get? other = table.get? other := by
  simp only [get?, erase, List.find?_filter]
  congr 2
  funext row
  by_cases same : row.1 = other
  · simp [same, h]
  · simp [same]

theorem get?_insert_ne (table : Table κ α) {key other : κ} (value : α) (h : other ≠ key) :
    (table.insert key value).get? other = table.get? other := by
  have : (table.insert key value).get? other = (table.erase key).get? other := by
    simp [get?, insert, Ne.symm h]
  rw [this, get?_erase_ne table h]

theorem get?_insert (table : Table κ α) (key other : κ) (value : α) :
    (table.insert key value).get? other = if other = key then some value else table.get? other := by
  split
  · rename_i same; rw [same, get?_insert_self]
  · rename_i different; exact get?_insert_ne table value different

theorem get?_erase (table : Table κ α) (key other : κ) :
    (table.erase key).get? other = if other = key then none else table.get? other := by
  split
  · rename_i same; rw [same, get?_erase_self]
  · rename_i different; exact get?_erase_ne table different

theorem contains_iff {table : Table κ α} {key : κ} :
    table.contains key = true ↔ key ∈ table.rows.map Prod.fst := by
  simp [contains, get?]

theorem length_filter_ne {rows : List (κ × α)} (h : (rows.map Prod.fst).Nodup) (key : κ) :
    (rows.filter fun row => row.1 ≠ key).length + (if key ∈ rows.map Prod.fst then 1 else 0) =
      rows.length := by
  induction rows with
  | nil => rfl
  | cons row rest ih =>
    obtain ⟨fresh, distinct⟩ := List.nodup_cons.mp h
    have hrest := ih distinct
    by_cases same : row.1 = key
    · subst same
      rw [if_neg fresh] at hrest
      simpa using hrest
    · simp only [List.map_cons, List.mem_cons, Ne.symm same, false_or, List.length_cons, ← hrest]
      simp [same]
      omega

theorem size_insert (table : Table κ α) (key : κ) (value : α) :
    (table.insert key value).size = if table.contains key then table.size else table.size + 1 := by
  have hrows := length_filter_ne table.nodup key
  have hsize : (table.insert key value).size =
      (table.rows.filter fun row => row.1 ≠ key).length + 1 := rfl
  rw [hsize, size, ← hrows]
  simp only [contains_iff]
  split <;> omega

end Table

end Wayfinding
