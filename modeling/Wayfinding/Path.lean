namespace Wayfinding.Path

def separator : Char := '.'

/-- The pieces of a text between its separators. There is always at least one. -/
def pieces : List Char → List (List Char)
  | [] => [[]]
  | c :: cs =>
    if c = separator then [] :: pieces cs
    else match pieces cs with
      | [] => [[c]]
      | piece :: rest => (c :: piece) :: rest

/-- The segments of a path, unless one of them is empty. The empty path has no segments. -/
def segments? (path : String) : Option (List String) :=
  let names := (pieces path.toList).map String.ofList
  if "" ∈ names then none else some names

/-- A text cut in two at its last separator, if it has one. -/
def cutLast? : List Char → Option (List Char × List Char)
  | [] => none
  | c :: cs =>
    match cutLast? cs with
    | some (before, after) => some (c :: before, after)
    | none => if c = separator then some ([], cs) else none

/-- A path as the path of its parent level and its last segment. -/
def splitLast (path : String) : String × String :=
  match cutLast? path.toList with
  | some (before, after) => (String.ofList before, String.ofList after)
  | none => ("", path)

/-- The path of the item with this ID in the level at `parent`. -/
def join (parent id : String) : String :=
  if parent = "" then id else parent ++ String.singleton separator ++ id

/-- An ID that a path can address: not empty and without a separator. -/
def ValidId (id : String) : Prop := id ≠ "" ∧ separator ∉ id.toList

instance (id : String) : Decidable (ValidId id) :=
  inferInstanceAs (Decidable (id ≠ "" ∧ separator ∉ id.toList))

theorem pieces_ne_nil (cs : List Char) : pieces cs ≠ [] := by
  cases cs with
  | nil => simp [pieces]
  | cons c cs =>
    unfold pieces
    split
    · simp
    · split <;> simp

end Wayfinding.Path
