import Mathlib.Data.List.DropRight
import MessageCatalog.Proofs.Utf8Text

/-!
# Positions

Positions are ordered by their lines, and on one line by their columns. Characters lead
from position to position: the more bytes of a text are passed, the further, and no further
than to the end of the text. A position is looked for among the bytes of a document, but it
is the one that the characters lead to. Every byte leads on as a fold would: a line break to
the next line, the first byte of another character to the next column, and all other bytes
nowhere. So the bytes of a character lead where the character does as soon as its first byte
is passed.
-/

namespace MessageCatalog

namespace Position

/-! ## The order -/

/-- One position is not behind another: its line is earlier, or the line is the same and
its column is not greater. -/
instance : LE Position where
  le first second :=
    first.line < second.line ∨ first.line = second.line ∧ first.column ≤ second.column

/-- What the order of positions is. -/
theorem le_def {first second : Position} : first ≤ second ↔
    first.line < second.line ∨ first.line = second.line ∧ first.column ≤ second.column :=
  Iff.rfl

instance (first second : Position) : Decidable (first ≤ second) :=
  decidable_of_iff _ le_def.symm

/-- A position is not behind itself. -/
theorem le_refl (position : Position) : position ≤ position := .inr ⟨rfl, Nat.le_refl _⟩

/-- What is not behind a second position is not behind a third one that is no earlier. -/
theorem le_trans {first second third : Position} (h : first ≤ second) (h' : second ≤ third) :
    first ≤ third := by
  rw [le_def] at h h' ⊢
  omega

/-! ## From character to character -/

/-- The place behind one more character. -/
def after (position : Position) (c : Char) : Position :=
  if c = '\n' then ⟨position.line + 1, 1⟩ else ⟨position.line, position.column + 1⟩

/-- Move over the characters whose first byte is among the next `bytes`. -/
def advance (position : Position) (bytes : Nat) : List Char → Position
  | [] => position
  | c :: rest =>
    if bytes = 0 then position else advance (position.after c) (bytes - c.utf8Size) rest

/-- A character leads on. -/
theorem le_after (position : Position) (c : Char) : position ≤ position.after c := by
  unfold after
  split <;> simp [le_def]

/-- Characters lead on. -/
theorem le_advance (position : Position) (bytes : Nat) (text : List Char) :
    position ≤ position.advance bytes text := by
  induction text generalizing position bytes with
  | nil => exact le_refl position
  | cons c rest ih =>
    unfold advance
    split
    · exact le_refl position
    · exact le_trans (le_after position c) (ih _ _)

/-- More bytes lead at least as far. -/
theorem advance_le_advance (position : Position) {fewer more : Nat} (h : fewer ≤ more)
    (text : List Char) : position.advance fewer text ≤ position.advance more text := by
  induction text generalizing position fewer more with
  | nil => exact le_refl position
  | cons c rest ih =>
    by_cases none : fewer = 0
    · rw [advance, if_pos none]
      exact le_advance position more (c :: rest)
    · rw [advance, if_neg none, advance, if_neg (by omega)]
      exact ih _ (by omega)

/-- No bytes lead nowhere. -/
theorem advance_zero (position : Position) (text : List Char) :
    position.advance 0 text = position := by
  cases text with
  | nil => rfl
  | cons c rest => exact if_pos rfl

/-- The bytes that the first part of a text leaves lead over the second. -/
theorem advance_append (position : Position) (bytes : Nat) (before rest : List Char) :
    position.advance bytes (before ++ rest) =
      (position.advance bytes before).advance (bytes - Utf8.length before) rest := by
  induction before generalizing position bytes with
  | nil => rfl
  | cons c before ih =>
    rw [List.cons_append, advance, advance, Utf8.length_cons]
    split
    next none => rw [none, Nat.zero_sub, advance_zero]
    next => rw [ih, Nat.sub_sub]

/-- As many bytes as there are lead over all characters, and more lead no further. -/
theorem advance_of_length_le (position : Position) {bytes : Nat} {text : List Char}
    (h : Utf8.length text ≤ bytes) : position.advance bytes text = text.foldl after position := by
  induction text generalizing position bytes with
  | nil => rfl
  | cons c rest ih =>
    rw [Utf8.length_cons] at h
    have some := c.utf8Size_pos
    rw [advance, if_neg (by omega), ih _ (by omega)]
    rfl

/-- Lines and columns that count from one go on doing so. -/
theorem one_le_advance {position : Position} (h : 1 ≤ position.line ∧ 1 ≤ position.column)
    (bytes : Nat) (text : List Char) :
    1 ≤ (position.advance bytes text).line ∧ 1 ≤ (position.advance bytes text).column := by
  induction text generalizing position bytes with
  | nil => exact h
  | cons c rest ih =>
    unfold advance
    split
    · exact h
    · refine ih ?_ _
      unfold after
      split <;> simp [h]

/-! ## Bytes of a character -/

/-- A byte begins a character unless it lies between those of ASCII and the large ones. -/
theorem beginsCharacter_eq (byte : UInt8) :
    beginsCharacter byte = decide (byte.toNat < 128 ∨ 192 ≤ byte.toNat) := by
  have all : ∀ n : Fin 256,
      beginsCharacter (UInt8.ofNat n) = decide (n.val < 128 ∨ 192 ≤ n.val) := by
    decide +kernel
  have here := all ⟨byte.toNat, byte.toNat_lt⟩
  rwa [UInt8.ofNat_toNat] at here

/-- Of the bytes of a character only the first one begins a character, and it is a line break
only if the character is one. -/
theorem exists_beginning_byte (c : Char) : ∃ lead more,
    String.utf8EncodeChar c = lead :: more ∧ beginsCharacter lead = true ∧
      (lead = lineBreak ↔ c = '\n') ∧ ∀ byte ∈ more, beginsCharacter byte = false := by
  have code : c = '\n' ↔ c.toNat = 10 :=
    ⟨fun same => by rw [same]; rfl, fun same => Char.toNat_inj.mp same⟩
  have value : lineBreak.toNat = 10 := rfl
  simp only [beginsCharacter_eq, decide_eq_true_eq, decide_eq_false_iff_not, code,
    ← UInt8.toNat_inj, value]
  obtain ⟨lead, more, shape, ⟨small, same, rfl⟩ | ⟨large, starts, goes⟩⟩ :=
    Utf8.exists_first_byte c
  · exact ⟨lead, [], shape, by omega, by omega, by simp⟩
  · refine ⟨lead, more, shape, .inr starts, by omega, fun byte member => ?_⟩
    have between := goes byte member
    omega

/-! ## From byte to byte -/

/-- The place behind one more byte. -/
def afterByte (position : Position) (byte : UInt8) : Position :=
  if byte = lineBreak then ⟨position.line + 1, 1⟩
  else if beginsCharacter byte then ⟨position.line, position.column + 1⟩
  else position

/-- The last line starts at one of the bytes or behind them. -/
theorem lineStart_le (bytes : List UInt8) : lineStart bytes ≤ bytes.length := by
  unfold lineStart
  split <;> omega

/-- Behind a line break a line starts. -/
theorem lineStart_break (bytes : List UInt8) :
    lineStart (bytes ++ [lineBreak]) = (bytes ++ [lineBreak]).length := by
  rw [lineStart, List.reverse_concat, List.findIdx?_cons, if_pos (beq_self_eq_true lineBreak)]
  rfl

/-- Another byte goes on with the last line. -/
theorem lineStart_of_ne {byte : UInt8} (other : byte ≠ lineBreak) (bytes : List UInt8) :
    lineStart (bytes ++ [byte]) = lineStart bytes := by
  rw [lineStart, lineStart, List.reverse_concat, List.findIdx?_cons,
    if_neg (fun same => other (beq_iff_eq.mp same))]
  cases bytes.reverse.findIdx? (· == lineBreak) with
  | none => rfl
  | some behind =>
    rw [List.length_append, List.length_singleton]
    exact Nat.add_sub_add_right _ 1 _

/-- One more byte leads on from the place behind the bytes before it. A line break leaves
nothing of the last line, any other byte lengthens it. -/
theorem ofBytes_concat (bytes : List UInt8) (byte : UInt8) :
    ofBytes (bytes ++ [byte]) = (ofBytes bytes).afterByte byte := by
  unfold afterByte
  split
  next isBreak =>
    rw [isBreak, ofBytes, lineStart_break, List.drop_length, List.count_append,
      List.count_singleton_self]
    rfl
  next other =>
    have line : (bytes ++ [byte]).count lineBreak = bytes.count lineBreak := by
      rw [List.count_append, List.count_singleton, if_neg (by simpa using other), Nat.add_zero]
    rw [ofBytes, line, lineStart_of_ne other, List.drop_append_of_le_length (lineStart_le bytes),
      List.countP_append, List.countP_singleton]
    split <;> rfl

/-- The place behind some bytes is reached byte by byte. -/
theorem ofBytes_eq_foldl (bytes : List UInt8) : ofBytes bytes = bytes.foldl afterByte first := by
  induction bytes using List.reverseRecOn with
  | nil => rfl
  | append_singleton bytes byte ih => rw [ofBytes_concat, ih, List.foldl_concat]

/-- Bytes that begin no character lead nowhere. -/
theorem foldl_afterByte_of_none {bytes : List UInt8}
    (none : ∀ byte ∈ bytes, beginsCharacter byte = false) (position : Position) :
    bytes.foldl afterByte position = position := by
  induction bytes with
  | nil => rfl
  | cons byte rest ih =>
    obtain ⟨here, later⟩ := List.forall_mem_cons.mp none
    have other : byte ≠ lineBreak := by
      rintro rfl
      exact absurd here (by decide)
    have stays : position.afterByte byte = position := by
      rw [afterByte, if_neg other, here, if_neg Bool.false_ne_true]
    rw [List.foldl_cons, stays, ih later]

/-- The first byte of a character leads where the character does, and the others add nothing. -/
theorem foldl_afterByte_take {count : Nat} (some : count ≠ 0) (position : Position) (c : Char) :
    ((String.utf8EncodeChar c).take count).foldl afterByte position = position.after c := by
  obtain ⟨lead, more, shape, begins, isBreak_iff, goes⟩ := exists_beginning_byte c
  obtain ⟨count, rfl⟩ := Nat.exists_eq_succ_of_ne_zero some
  have step : position.afterByte lead = position.after c := by
    rw [afterByte, after, if_pos begins]
    simp only [isBreak_iff]
  rw [shape, List.take_succ_cons, List.foldl_cons, step]
  exact foldl_afterByte_of_none (fun byte member => goes byte (List.mem_of_mem_take member)) _

/-- Some bytes of a text lead where its characters do whose first byte is among them. What
an offset takes of a character that it divides has the first byte. -/
theorem foldl_afterByte_eq_advance (position : Position) (text : List Char) (offset : Nat) :
    ((text.flatMap String.utf8EncodeChar).take offset).foldl afterByte position =
      position.advance offset text := by
  induction text generalizing position offset with
  | nil => rw [List.flatMap_nil, List.take_nil, List.foldl_nil, advance]
  | cons c rest ih =>
    by_cases none : offset = 0
    · rw [none, List.take_zero, List.foldl_nil, advance, if_pos rfl]
    · rw [List.flatMap_cons, List.take_append, List.foldl_append, foldl_afterByte_take none,
        String.length_utf8EncodeChar, ih, advance, if_neg none]

/-! ## Positions by characters -/

/-- The position of an offset is where the characters lead whose first byte is in front of it. -/
theorem ofOffset_eq_advance (text : List Char) (offset : Nat) :
    ofOffset text offset = advance first offset text := by
  rw [ofOffset, ofBytes_eq_foldl, foldl_afterByte_eq_advance]

/-- A greater offset has no earlier position. -/
theorem ofOffset_le_ofOffset (text : List Char) {fewer more : Nat} (h : fewer ≤ more) :
    ofOffset text fewer ≤ ofOffset text more := by
  rw [ofOffset_eq_advance, ofOffset_eq_advance]
  exact advance_le_advance first h text

/-- No position is in front of the start. -/
theorem first_le_ofOffset (text : List Char) (offset : Nat) : first ≤ ofOffset text offset := by
  rw [ofOffset_eq_advance]
  exact le_advance first offset text

/-- An offset behind the end has the position of the end. -/
theorem ofOffset_of_length_le {text : List Char} {offset : Nat} (h : Utf8.length text ≤ offset) :
    ofOffset text offset = ofOffset text (Utf8.length text) := by
  rw [ofOffset_eq_advance, ofOffset_eq_advance, advance_of_length_le _ h,
    advance_of_length_le _ (Nat.le_refl _)]

/-- No position lies behind the end of the text. -/
theorem ofOffset_le_end (text : List Char) (offset : Nat) :
    ofOffset text offset ≤ ofOffset text (Utf8.length text) := by
  rcases Nat.le_total offset (Utf8.length text) with inside | behind
  · exact ofOffset_le_ofOffset text inside
  · rw [ofOffset_of_length_le behind]
    exact le_refl _

/-- The lines and columns of a document count from one. -/
theorem one_le_ofOffset (text : List Char) (offset : Nat) :
    1 ≤ (ofOffset text offset).line ∧ 1 ≤ (ofOffset text offset).column := by
  rw [ofOffset_eq_advance]
  exact one_le_advance ⟨Nat.le_refl 1, Nat.le_refl 1⟩ offset text

/-- The position behind the first part of a text is where its characters lead. -/
theorem ofOffset_append (before rest : List Char) :
    ofOffset (before ++ rest) (Utf8.length before) = before.foldl after first := by
  rw [ofOffset_eq_advance, advance_append, Nat.sub_self, advance_zero,
    advance_of_length_le _ (Nat.le_refl _)]

/-- An offset inside a character has the position behind it. -/
theorem ofOffset_inside {before : List Char} {c : Char} {offset : Nat}
    (inside : Utf8.length before < offset) (short : offset ≤ Utf8.length (before ++ [c]))
    (rest : List Char) :
    ofOffset (before ++ [c] ++ rest) offset = (before ++ [c]).foldl after first := by
  rw [ofOffset_eq_advance, advance_append, Nat.sub_eq_zero_of_le short, advance_zero,
    advance_append, advance_of_length_le _ (Nat.le_of_lt inside), List.foldl_concat, advance,
    if_neg (by omega)]
  rfl

/-- Characters lead to the line behind their line breaks, and on it to the column behind the
characters that follow the last one. -/
theorem foldl_after (text : List Char) :
    text.foldl after first =
      ⟨1 + text.count '\n', 1 + (text.rtakeWhile (· != '\n')).length⟩ := by
  induction text using List.reverseRecOn with
  | nil => rfl
  | append_singleton text c ih =>
    rw [List.foldl_concat, ih, after, List.rtakeWhile_concat, List.count_append,
      List.count_singleton]
    by_cases isBreak : c = '\n' <;> simp [isBreak, Nat.add_assoc]

/-- Positions are looked for among bytes, but they count characters. Behind the first part of
a text, however it is split, the line is one more than the line breaks of that part, and the
column is one more than its characters behind the last of them, or than all of its characters
where it has none. An offset behind the end has the position of the end, and one inside a
character the position behind that character. A greater offset has no earlier position. -/
theorem counted_in_characters :
    (∀ before rest : String, ofOffset (before ++ rest).toList before.utf8ByteSize =
      ⟨1 + before.toList.count '\n', 1 + (before.toList.rtakeWhile (· != '\n')).length⟩) ∧
    (∀ (text : String) (offset : Nat), text.utf8ByteSize < offset →
      ofOffset text.toList offset = ofOffset text.toList text.utf8ByteSize) ∧
    (∀ (before rest : String) (c : Char) (offset : Nat),
      before.utf8ByteSize < offset → offset < (before.push c).utf8ByteSize →
        ofOffset (before.push c ++ rest).toList offset =
          ofOffset (before.push c ++ rest).toList (before.push c).utf8ByteSize) ∧
    ∀ (text : String) (fewer more : Nat), fewer ≤ more →
      ofOffset text.toList fewer ≤ ofOffset text.toList more := by
  have size (text : String) : text.utf8ByteSize = Utf8.length text.toList := Utf8.size_toUTF8 text
  refine ⟨fun before rest => ?boundary, fun text offset behind => ?behind,
    fun before rest c offset inside short => ?inside,
    fun text fewer more le => ofOffset_le_ofOffset text.toList le⟩
  case boundary => rw [size, String.toList_append, ofOffset_append, foldl_after]
  case behind =>
    rw [size] at behind ⊢
    exact ofOffset_of_length_le (Nat.le_of_lt behind)
  case inside =>
    rw [size] at inside
    rw [size, String.toList_push] at short
    rw [size, String.toList_append, ofOffset_append, String.toList_push,
      ofOffset_inside inside (Nat.le_of_lt short)]

/-- Behind a line break and a character of two bytes, inside that character and behind the end,
positions count it once. -/
theorem divided_umlaut_counts_once :
    ofOffset ("ab\nü" ++ "x").toList "ab\nü".utf8ByteSize = ⟨2, 2⟩ ∧
      "ab\n".utf8ByteSize < 4 ∧ 4 < ("ab\n".push 'ü').utf8ByteSize ∧
      ofOffset ("ab\n".push 'ü' ++ "x").toList 4 = ⟨2, 2⟩ ∧
      "ab\nüx".utf8ByteSize < 9 ∧ ofOffset "ab\nüx".toList 9 = ⟨2, 3⟩ ∧
      ofOffset "ab\nüx".toList 2 ≤ ofOffset "ab\nüx".toList 4 := by
  obtain ⟨boundary, behind, inside, ordered⟩ := counted_in_characters
  refine ⟨(boundary "ab\nü" "x").trans (by decide +kernel), by decide +kernel, by decide +kernel,
    ?_, by decide +kernel, ?_, ordered "ab\nüx" 2 4 (by decide)⟩
  · exact (inside "ab\n" "x" 'ü' 4 (by decide +kernel) (by decide +kernel)).trans (by decide +kernel)
  · exact (behind "ab\nüx" 9 (by decide +kernel)).trans (by decide +kernel)

end Position

end MessageCatalog
