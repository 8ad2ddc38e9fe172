import Wayfinding.Proofs.Json.Grammar

namespace Wayfinding.Json

open Text

/-- A letter stands for the same character behind a backslash when it is read as when it is written. -/
theorem ofLetter?_letterOf? {c letter : Char} (h : letterOf? c = some letter) :
    ofLetter? letter = some c := by
  unfold letterOf? at h
  split at h
  all_goals first | contradiction | (obtain rfl := Option.some.inj h; decide)

theorem letterOf?_eq_none {c : Char} (h : letterOf? c = none) : c ≠ '"' ∧ c ≠ '\\' := by
  constructor
  all_goals
    rintro rfl
    contradiction

theorem readPieces_quote (rest : List Char) : readPieces ('"' :: rest) = some ([], rest) := by
  rw [readPieces.eq_def]
  exact if_pos rfl

theorem readPieces_letter {c letter : Char} (h : ofLetter? letter = some c) (rest : List Char) :
    readPieces ('\\' :: letter :: rest) =
      (readPieces rest).map fun (pieces, rest) => (.char c :: pieces, rest) := by
  have hu : letter ≠ 'u' := by
    rintro rfl
    contradiction
  rw [readPieces.eq_def]
  simp only [Char.reduceEq, if_false, if_true]
  split
  · rename_i he
    exact absurd (List.cons.inj he).1 hu
  · rename_i he
    obtain ⟨rfl, rfl⟩ := List.cons.inj he
    rw [h]
    cases readPieces _ <;> rfl
  · contradiction

theorem readPieces_code {a b c d : Char} {code : Nat} (h : Hex.number? [a, b, c, d] = some code)
    (rest : List Char) :
    readPieces ('\\' :: 'u' :: a :: b :: c :: d :: rest) =
      (readPieces rest).map fun (pieces, rest) => (.ofCode code :: pieces, rest) := by
  rw [readPieces]
  simp only [Char.reduceEq, if_false, if_true, h]
  cases readPieces rest <;> rfl

theorem readPieces_raw {c : Char} (hquote : c ≠ '"') (hslash : c ≠ '\\') (hc : ¬c.toNat < 0x20)
    (rest : List Char) :
    readPieces (c :: rest) = (readPieces rest).map fun (pieces, rest) => (.char c :: pieces, rest) := by
  rw [readPieces.eq_def]
  simp only [hquote, hslash, hc, if_false]

theorem readPieces_of_pieces {pieces : List Piece} {start rest : List Char}
    (h : Grammar.Pieces pieces start rest) : readPieces start = some (pieces, rest) := by
  induction h with
  | close => exact readPieces_quote _
  | raw printable plain _ ih =>
    rw [readPieces_raw plain.1 plain.2 (Nat.not_lt.mpr printable), ih]
    rfl
  | letter stands _ ih =>
    rw [readPieces_letter stands, ih]
    rfl
  | code stands _ ih =>
    rw [readPieces_code stands, ih]
    rfl

theorem readText_of_quoted {text : Option String} {start rest : List Char} (h : Grammar.Quoted text start rest) :
    ∃ next, start = '"' :: next ∧ readText next = some (text, rest) := by
  obtain ⟨inside⟩ := h
  exact ⟨_, rfl, by rw [readText, readPieces_of_pieces inside]; rfl⟩

theorem Grammar.Pieces.control {pieces : List Piece} {next rest : List Char} (h : Pieces pieces next rest)
    {c : Char} (hc : c.toNat < 0x20) :
    Pieces (.char c :: pieces) ('\\' :: 'u' :: '0' :: '0' :: (Hex.ofByte (.ofNat c.toNat) ++ next)) rest := by
  have hcode := Hex.number?_ofByte (.ofNat c.toNat)
  have hbyte : (UInt8.ofNat c.toNat).toNat = c.toNat := by
    rw [UInt8.toNat_ofNat']
    omega
  have hpiece : Piece.ofCode c.toNat = .char c := by
    rw [Piece.ofCode, if_neg (by omega), Char.ofNat_toNat]
  rw [hbyte] at hcode
  rw [← hpiece]
  exact .code hcode h

theorem pieces_writeChar {pieces : List Piece} {next rest : List Char} (h : Grammar.Pieces pieces next rest)
    (c : Char) : Grammar.Pieces (.char c :: pieces) (writeChar c ++ next) rest := by
  unfold writeChar
  cases hletter : letterOf? c with
  | some letter => exact .letter (ofLetter?_letterOf? hletter) h
  | none =>
    dsimp only
    split
    case isTrue hc => exact h.control hc
    case isFalse hc => exact .raw (Nat.not_lt.mp hc) (letterOf?_eq_none hletter) h

theorem pieces_flatMap_writeChar (text rest : List Char) :
    Grammar.Pieces (text.map .char) (text.flatMap writeChar ++ '"' :: rest) rest := by
  induction text with
  | nil => exact .close
  | cons c text ih =>
    rw [List.flatMap_cons, List.append_assoc]
    exact pieces_writeChar ih c

theorem assemble?_map_char (text : List Char) : assemble? (text.map .char) = some text := by
  induction text with
  | nil => rfl
  | cons c text ih =>
    rw [List.map_cons, assemble?, ih]
    rfl

theorem quoted_writeString (text : Option String) (rest : List Char) :
    Grammar.Quoted text (writeString text ++ rest) rest := by
  cases text with
  | none =>
    have hcode : Hex.number? ['d', '8', '0', '0'] = some 0xD800 := by decide
    exact .intro (.code hcode .close)
  | some text =>
    have hquoted := Grammar.Quoted.intro (pieces_flatMap_writeChar text.toList rest)
    rw [assemble?_map_char, Option.map_some, String.ofList_toList] at hquoted
    simpa [writeString, writeText] using hquoted

end Wayfinding.Json
