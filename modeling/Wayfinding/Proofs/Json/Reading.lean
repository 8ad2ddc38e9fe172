import Wayfinding.Proofs.Json.Decimal
import Wayfinding.Proofs.Json.Quoting

namespace Wayfinding.Json

open Grammar

/-- The characters that a number can begin with. -/
def numberStarts : List Char := '-' :: (List.finRange 10).map digitChar

/-- No other value begins with one of them, and nothing ends with one. -/
theorem numberStarts_others : ∀ c ∈ numberStarts,
    isSpace c = false ∧ c ≠ '"' ∧ c ≠ '[' ∧ c ≠ ']' ∧ c ≠ '\x7b' ∧ c ≠ 'n' ∧ c ≠ 't' ∧ c ≠ 'f' := by
  intro c hc
  rcases List.mem_cons.mp hc with rfl | hdigit
  · simp [isSpace]
  · obtain ⟨digit, -, rfl⟩ := List.mem_map.mp hdigit
    revert digit
    decide

theorem number_eq_cons {number : Number} {start rest : List Char} (h : Grammar.Number number start rest) :
    ∃ c tail, start = c :: tail ∧ c ∈ numberStarts := by
  obtain @⟨negative, digits, _, _, _, _, _, _, whole, -, -⟩ := h
  cases negative with
  | true => exact ⟨'-', _, rfl, List.mem_cons_self⟩
  | false =>
    obtain ⟨digit, others, rfl⟩ := List.exists_cons_of_ne_nil whole.nonempty
    exact ⟨digitChar digit, _, rfl, List.mem_cons_of_mem _ (List.mem_map_of_mem (List.mem_finRange digit))⟩

theorem endsNumber_nil : EndsNumber [] := fun _ h => nomatch h

theorem endsNumber_cons {c : Char} (h : c ∈ [',', ']', '\x7d']) (rest : List Char) :
    EndsNumber (c :: rest) := by
  rintro first hfirst
  obtain rfl := Option.some.inj hfirst
  simp only [List.mem_cons, List.not_mem_nil, or_false] at h
  rcases h with rfl | rfl | rfl <;> simp [digit?]

theorem endsNumber_of_blanks {start rest : List Char} (h : Blanks start rest) (hrest : EndsNumber rest) :
    EndsNumber start := by
  cases h with
  | none => exact hrest
  | cons blank _ =>
    rintro first hfirst
    obtain rfl := Option.some.inj hfirst
    simp only [isSpace, decide_eq_true_eq] at blank
    rcases blank with rfl | rfl | rfl | rfl <;> simp [digit?]

theorem skipSpace_cons {c : Char} (h : isSpace c = false) (rest : List Char) :
    skipSpace (c :: rest) = c :: rest := by
  rw [skipSpace, List.dropWhile_cons_of_neg (by simp [h])]

theorem skipSpace_of_blanks {start rest : List Char} (h : Blanks start rest) : skipSpace start = skipSpace rest := by
  induction h with
  | none => rfl
  | cons blank _ ih => rw [skipSpace, List.dropWhile_cons_of_pos blank, ← skipSpace, ih]

/-- A text begins with something other than a blank and the end of an array, as the spelling of a value does. -/
def Begins (text : List Char) : Prop := ∃ c rest, text = c :: rest ∧ isSpace c = false ∧ c ≠ ']'

theorem begins_value {value : Json} {start rest : List Char} (h : Value value start rest) : Begins start := by
  cases h with
  | number spelled =>
    obtain ⟨c, tail, rfl, hmem⟩ := number_eq_cons spelled
    obtain ⟨hspace, -, -, hclose, -⟩ := numberStarts_others c hmem
    exact ⟨c, tail, rfl, hspace, hclose⟩
  | string quoted =>
    obtain ⟨tail, rfl, -⟩ := readText_of_quoted quoted
    exact ⟨_, _, rfl, by decide, by decide⟩
  | _ => exact ⟨_, _, rfl, by decide, by decide⟩

theorem begins_elements {values : List Json} {start rest : List Char} (h : Elements values start rest) :
    ∃ first, Blanks start first ∧ Begins first := by
  obtain ⟨before, value, -⟩ | ⟨before, value, -, -⟩ := h
  all_goals exact ⟨_, before, begins_value value⟩

theorem begins_members {members : List (Option String × Json)} {start rest : List Char}
    (h : Members members start rest) : ∃ body, Blanks start ('"' :: body) := by
  obtain ⟨⟨before, key, -⟩⟩ | ⟨⟨before, key, -⟩, -⟩ := h
  all_goals
    obtain ⟨body, rfl, -⟩ := readText_of_quoted key
    exact ⟨body, before⟩

section

variable {fuel : Nat} {start first next more rest : List Char} {value : Json} {values : List Json}
  {entry : Option String × Json} {members : List (Option String × Json)}

theorem readValue_of_blanks (h : Blanks start first) : readValue fuel start = readValue fuel first := by
  cases fuel with
  | zero => rfl
  | succ fuel => rw [readValue, skipSpace_of_blanks h, readValue]

theorem readElements_of_blanks (h : Blanks start first) : readElements fuel start = readElements fuel first := by
  cases fuel with
  | zero => rfl
  | succ fuel => rw [readElements, readValue_of_blanks h, readElements]

theorem readMembers_of_blanks (h : Blanks start first) : readMembers fuel start = readMembers fuel first := by
  cases fuel with
  | zero => rfl
  | succ fuel => rw [readMembers, skipSpace_of_blanks h, readMembers]

theorem readValue_array (hb : Blanks start first) (hfirst : Begins first)
    (h : readElements fuel start = some (values, rest)) :
    readValue (fuel + 1) ('[' :: start) = some (.array values, rest) := by
  obtain ⟨c, tail, rfl, hspace, hclose⟩ := hfirst
  rw [readElements_of_blanks hb] at h
  rw [readValue, skipSpace_cons (by decide)]
  simp only [Char.reduceEq, if_false, if_true, skipSpace_of_blanks hb, skipSpace_cons hspace]
  split
  · rename_i he
    exact absurd (List.cons.inj he).1 hclose
  · rw [h, Option.map_some]

theorem readElements_last (h : readValue fuel start = some (value, next)) (after : Blanks next (']' :: rest)) :
    readElements (fuel + 1) start = some ([value], rest) := by
  rw [readElements, h]
  simp (disch := decide) only [skipSpace_of_blanks after, skipSpace_cons]

theorem readElements_cons (h : readValue fuel start = some (value, next)) (after : Blanks next (',' :: more))
    (hmore : readElements fuel more = some (values, rest)) :
    readElements (fuel + 1) start = some (value :: values, rest) := by
  rw [readElements, h]
  simp (disch := decide) only [skipSpace_of_blanks after, skipSpace_cons, hmore, Option.map_some]

theorem readValue_object {body : List Char} (hb : Blanks start ('"' :: body))
    (h : readMembers fuel start = some (members, rest)) :
    readValue (fuel + 1) ('\x7b' :: start) = some (.object members, rest) := by
  rw [readMembers_of_blanks hb] at h
  rw [readValue, skipSpace_cons (by decide)]
  simp (disch := decide) only [Char.reduceEq, if_false, if_true, skipSpace_of_blanks hb, skipSpace_cons]
  split
  · rename_i he
    exact absurd (List.cons.inj he).1 (by decide)
  · rw [h, Option.map_some]

/-- What the reader finds of a member: its key, a colon and its value, with blanks around them. -/
def ReadsMember (fuel : Nat) (entry : Option String × Json) (start rest : List Char) : Prop :=
  ∃ body next behind last, skipSpace start = '"' :: body ∧ readText body = some (entry.1, next) ∧
    skipSpace next = ':' :: behind ∧ readValue fuel behind = some (entry.2, last) ∧ skipSpace last = skipSpace rest

theorem readMembers_last (h : ReadsMember fuel entry start ('\x7d' :: rest)) :
    readMembers (fuel + 1) start = some ([entry], rest) := by
  obtain ⟨body, next, behind, last, hstart, hkey, hcolon, hvalue, hlast⟩ := h
  rw [readMembers, hstart]
  simp (disch := decide) only [hkey, hcolon, hvalue, hlast, skipSpace_cons]

theorem readMembers_cons (h : ReadsMember fuel entry start (',' :: more))
    (hmore : readMembers fuel more = some (members, rest)) :
    readMembers (fuel + 1) start = some (entry :: members, rest) := by
  obtain ⟨body, next, behind, last, hstart, hkey, hcolon, hvalue, hlast⟩ := h
  rw [readMembers, hstart]
  simp (disch := decide) only [hkey, hcolon, hvalue, hlast, skipSpace_cons, hmore, Option.map_some]

end

mutual

/-- A value is read, if what follows it would not go on with a number. The fuel lasts because each call
that spends some of it leaves a bracket, a comma or a key behind. -/
theorem readValue_of_value {value : Json} {start rest : List Char} : Value value start rest → (fuel : Nat) →
    2 * start.length ≤ fuel → EndsNumber rest → readValue fuel start = some (value, rest)
  | spelled, 0, hfuel, _ => by
    have hlength := spelled.length_lt
    omega
  | .null, fuel + 1, _, _ | .true, fuel + 1, _, _ | .false, fuel + 1, _, _ => by
    simp (disch := decide) [readValue, skipSpace_cons]
  | .number spelled, fuel + 1, _, hrest => by
    obtain ⟨c, tail, rfl, hmem⟩ := number_eq_cons spelled
    obtain ⟨hs, hquote, hopen, -, hbrace, hn, ht, hf⟩ := numberStarts_others c hmem
    rw [readValue, skipSpace_cons hs]
    simp only [hquote, hopen, hbrace, hn, ht, hf, if_false, readNumber_of_number spelled hrest, Option.map_some]
  | .string quoted, fuel + 1, _, _ => by
    obtain ⟨body, rfl, hread⟩ := readText_of_quoted quoted
    rw [readValue, skipSpace_cons (by decide)]
    simp only [if_true, hread, Option.map_some]
  | .emptyArray blanks, fuel + 1, _, _ | .emptyObject blanks, fuel + 1, _, _ => by
    rw [readValue, skipSpace_cons (by decide)]
    simp (disch := decide) [skipSpace_of_blanks blanks, skipSpace_cons]
  | .array inside, fuel + 1, hfuel, _ => by
    obtain ⟨first, hb, hfirst⟩ := begins_elements inside
    rw [List.length_cons] at hfuel
    exact readValue_array hb hfirst (readElements_of_elements inside fuel (by omega))
  | .object inside, fuel + 1, hfuel, _ => by
    obtain ⟨body, hb⟩ := begins_members inside
    rw [List.length_cons] at hfuel
    exact readValue_object hb (readMembers_of_members inside fuel (by omega))

theorem readElements_of_elements {values : List Json} {start rest : List Char} : Elements values start rest →
    (fuel : Nat) → 2 * start.length < fuel → readElements fuel start = some (values, rest)
  | _, 0, hfuel => absurd hfuel (Nat.not_lt_zero _)
  | .last before value after, fuel + 1, hfuel => by
    have hbefore := before.length_le
    have hends := endsNumber_of_blanks after (endsNumber_cons (by decide) _)
    refine readElements_last ?_ after
    rw [readValue_of_blanks before]
    exact readValue_of_value value fuel (by omega) hends
  | .cons before value after others, fuel + 1, hfuel => by
    have hbefore := before.length_le
    have hvalue := value.length_lt
    have hafter := after.length_le
    have hends := endsNumber_of_blanks after (endsNumber_cons (by decide) _)
    rw [List.length_cons] at hafter
    refine readElements_cons ?_ after (readElements_of_elements others fuel (by omega))
    rw [readValue_of_blanks before]
    exact readValue_of_value value fuel (by omega) hends

theorem readsMember_of_member {entry : Option String × Json} {start rest : List Char} : Member entry start rest →
    (fuel : Nat) → 2 * start.length ≤ fuel → EndsNumber rest → ReadsMember fuel entry start rest
  | .intro before key colon between value after, fuel, hfuel, hrest => by
    have hbefore := before.length_le
    have hkey := key.length_lt
    have hcolon := colon.length_le
    have hbetween := between.length_le
    obtain ⟨body, rfl, hread⟩ := readText_of_quoted key
    rw [List.length_cons] at hcolon
    have hquote := (skipSpace_of_blanks before).trans (skipSpace_cons (by decide) _)
    have hmiddle := (skipSpace_of_blanks colon).trans (skipSpace_cons (by decide) _)
    have hvalue := readValue_of_value value fuel (by omega) (endsNumber_of_blanks after hrest)
    rw [← readValue_of_blanks between] at hvalue
    exact ⟨body, _, _, _, hquote, hread, hmiddle, hvalue, skipSpace_of_blanks after⟩

theorem readMembers_of_members {members : List (Option String × Json)} {start rest : List Char} :
    Members members start rest → (fuel : Nat) → 2 * start.length < fuel →
      readMembers fuel start = some (members, rest)
  | _, 0, hfuel => absurd hfuel (Nat.not_lt_zero _)
  | .last member, fuel + 1, hfuel =>
    readMembers_last (readsMember_of_member member fuel (by omega) (endsNumber_cons (by decide) _))
  | .cons member others, fuel + 1, hfuel => by
    have hmember := member.length_lt
    rw [List.length_cons] at hmember
    refine readMembers_cons ?_ (readMembers_of_members others fuel (by omega))
    exact readsMember_of_member member fuel (by omega) (endsNumber_cons (by decide) _)

end

theorem parse?_of_spells {text : String} {value : Json} (h : Spells text value) : parse? text = some value := by
  obtain ⟨start, rest, before, spelled, after⟩ := h
  have hbefore := before.length_le
  have hread := readValue_of_value spelled (2 * text.toList.length + 2) (by omega)
    (endsNumber_of_blanks after endsNumber_nil)
  rw [parse?, readValue_of_blanks before, hread]
  dsimp only
  rw [skipSpace_of_blanks after]
  rfl

/-- The text of an array behind its opening bracket. -/
def elementsText : List Json → List Char
  | [] => [']']
  | value :: rest => write value ++ writeElements rest

/-- The text of an object behind its opening brace. -/
def membersText : List (Option String × Json) → List Char
  | [] => ['\x7d']
  | entry :: rest => writeMember entry ++ writeMembers rest

theorem write_array (values : List Json) : write (array values) = '[' :: elementsText values := by
  cases values <;> rw [write, elementsText]

theorem write_object (members : List (Option String × Json)) :
    write (object members) = '\x7b' :: membersText members := by
  cases members <;> rw [write, membersText]

theorem writeElements_cons (value : Json) (rest : List Json) :
    writeElements (value :: rest) = ',' :: elementsText (value :: rest) := by
  rw [writeElements, elementsText]

theorem writeMembers_cons (entry : Option String × Json) (rest : List (Option String × Json)) :
    writeMembers (entry :: rest) = ',' :: membersText (entry :: rest) := by
  rw [writeMembers, membersText]

mutual

theorem value_write : (value : Json) → (rest : List Char) → Value value (value.write ++ rest) rest
  | .null, _ => .null
  | .bool true, _ => .true
  | .bool false, _ => .false
  | .number n, rest => .number (number_writeNumber n rest)
  | .string text, rest => .string (quoted_writeString text rest)
  | .array [], _ => .emptyArray .none
  | .array (value :: values), rest => by
    rw [write_array]
    exact .array (elements_elementsText (value :: values) (List.cons_ne_nil _ _) rest)
  | .object [], _ => .emptyObject .none
  | .object (entry :: members), rest => by
    rw [write_object]
    exact .object (members_membersText (entry :: members) (List.cons_ne_nil _ _) rest)

theorem elements_elementsText : (values : List Json) → values ≠ [] → (rest : List Char) →
    Elements values (elementsText values ++ rest) rest
  | [], hne, _ => absurd rfl hne
  | [value], _, rest => by
    rw [elementsText, writeElements, List.append_assoc]
    exact .last .none (value_write value _) .none
  | value :: next :: others, _, rest => by
    rw [elementsText, writeElements_cons, List.append_assoc]
    exact .cons .none (value_write value _) .none
      (elements_elementsText (next :: others) (List.cons_ne_nil _ _) rest)

theorem member_writeMember : (entry : Option String × Json) → (rest : List Char) →
    Member entry (writeMember entry ++ rest) rest
  | (key, value), rest => by
    rw [writeMember, List.append_assoc]
    exact .intro .none (quoted_writeString key _) .none .none (value_write value rest) .none

theorem members_membersText : (members : List (Option String × Json)) → members ≠ [] → (rest : List Char) →
    Members members (membersText members ++ rest) rest
  | [], hne, _ => absurd rfl hne
  | [entry], _, rest => by
    rw [membersText, writeMembers, List.append_assoc]
    exact .last (member_writeMember entry _)
  | entry :: next :: others, _, rest => by
    rw [membersText, writeMembers_cons, List.append_assoc]
    exact .cons (member_writeMember entry _) (members_membersText (next :: others) (List.cons_ne_nil _ _) rest)

end

theorem spells_text (value : Json) : Spells value.text value := by
  refine ⟨value.write, [], ?_, ?_, .none⟩
  · rw [text, String.toList_ofList]
    exact .none
  · have hspelled := value_write value []
    rwa [List.append_nil] at hspelled

/-- Every value is read back from its text. -/
theorem parse?_text (value : Json) : parse? value.text = some value := parse?_of_spells (spells_text value)

end Wayfinding.Json
