import Mathlib.Data.List.Pairwise
import Mathlib.Logic.Basic
import MessageCatalog.CatalogReview
import MessageCatalog.Proofs.Utf8Text

/-!
# Finding place markers

A marker is told by the characters behind a percent sign, wherever the sign stands.
The search goes over bytes and passes over the digits that it has read. It never asks
for bytes that are not there or for a part of a character, and it misses no sign: what
it passes over are a letter and digits, and no byte of a character outside ASCII is a
percent sign, a letter or a digit.
-/

namespace MessageCatalog

namespace PlaceMarker

/-! ## Markers by their characters -/

/-- A number in front of a text: one digit, or two where there are two. -/
inductive Digits : List Char → Nat → Prop
  /-- One digit with no other behind it. -/
  | one {first : Char} {rest : List Char} (digit : first.isDigit = true)
    (alone : ∀ c ∈ rest.head?, c.isDigit = false) : Digits (first :: rest) (first.toNat - 48)
  /-- Two digits. -/
  | two {first second : Char} {rest : List Char} (digit : first.isDigit = true)
    (digit' : second.isDigit = true) :
    Digits (first :: second :: rest) (10 * (first.toNat - 48) + (second.toNat - 48))

/-- What makes a percent sign in front of it the start of a marker: a number, and
perhaps one letter before it. -/
inductive Behind : List Char → Nat → Prop
  /-- A number. -/
  | plain {text : List Char} {number : Nat} (digits : Digits text number) : Behind text number
  /-- A number behind the letter. -/
  | localized {text : List Char} {number : Nat} (digits : Digits text number) :
    Behind ('L' :: text) number

/-- A text has the marker of a number. -/
def Has (text : List Char) (number : Nat) : Prop :=
  1 ≤ number ∧ ∃ before behind, text = before ++ '%' :: behind ∧ Behind behind number

/-- An empty text has no markers. -/
theorem not_has_nil (number : Nat) : ¬Has [] number := by
  rintro ⟨_, before, behind, split, _⟩
  simp at split

/-- A marker is at the front of a text or behind its first character. -/
theorem has_cons {c : Char} {rest : List Char} {number : Nat} :
    Has (c :: rest) number ↔
      (c = '%' ∧ 1 ≤ number ∧ Behind rest number) ∨ Has rest number := by
  constructor
  · rintro ⟨positive, before, behind, split, found⟩
    cases before with
    | nil =>
      injection split with same tail
      exact .inl ⟨same, positive, tail ▸ found⟩
    | cons first before =>
      injection split with _ tail
      exact .inr ⟨positive, before, behind, tail, found⟩
  · rintro (⟨rfl, positive, found⟩ | ⟨positive, before, behind, rfl, found⟩)
    · exact ⟨positive, [], rest, rfl, found⟩
    · exact ⟨positive, c :: before, behind, rfl, found⟩

/-- Characters that are no percent sign begin no marker. -/
theorem has_append {front rest : List Char} (plain : ∀ c ∈ front, c ≠ '%') {number : Nat} :
    Has (front ++ rest) number ↔ Has rest number := by
  induction front with
  | nil => rfl
  | cons c front ih =>
    have here : c ≠ '%' := plain c List.mem_cons_self
    rw [List.cons_append, has_cons, ih fun d member => plain d (List.mem_cons_of_mem _ member)]
    simp [here]

/-- Digits are ASCII characters. -/
theorem digit_bounds {c : Char} (digit : c.isDigit = true) : 48 ≤ c.toNat ∧ c.toNat ≤ 57 := by
  simp only [Char.isDigit, Bool.and_eq_true, decide_eq_true_eq, ge_iff_le,
    UInt32.le_iff_toNat_le] at digit
  exact digit

/-- A digit is none of the other characters. -/
theorem ne_of_digit {c other : Char} (digit : c.isDigit = true) (plain : other.isDigit = false) :
    c ≠ other := by
  rintro rfl
  rw [digit] at plain
  exact absurd plain (by decide)

/-- One digit or two are a number of the right range. -/
theorem below?_digits {first : Char} (digit : first.isDigit = true) :
    Radix.decimal.below? UInt32.size [first] = some (first.toNat - 48) ∧
      ∀ {second : Char}, second.isDigit = true →
        Radix.decimal.below? UInt32.size [first, second] =
          some (10 * (first.toNat - 48) + (second.toNat - 48)) := by
  have unsigned : first ≠ '+' := ne_of_digit digit (by decide)
  obtain ⟨_, small⟩ := digit_bounds digit
  constructor
  · unfold Radix.below?
    split
    next same => simp_all
    next =>
      simp [Radix.natural?, Radix.extend?, Radix.digit?, digit, UInt32.size]
      omega
  · intro second digit'
    obtain ⟨_, small'⟩ := digit_bounds digit'
    unfold Radix.below?
    split
    next same => simp_all
    next =>
      simp [Radix.natural?, Radix.extend?, Radix.digit?, digit, digit', UInt32.size, Radix.base]
      omega

/-- The digits in front of a text, two at most. -/
def leading (text : List Char) : List Char := (text.take 2).takeWhile Char.isDigit

/-- A text begins with no number, or with one that its digits in front stand for. -/
theorem digits_cases (text : List Char) :
    (leading text = [] ∧ ∀ number, ¬Digits text number) ∨
      ∃ value digits rest, text = digits ++ rest ∧ leading text = digits ∧ digits ≠ [] ∧
        Radix.decimal.below? UInt32.size digits = some value ∧
        ∀ number, Digits text number ↔ number = value := by
  unfold leading
  cases text with
  | nil => exact .inl ⟨rfl, fun number h => by cases h⟩
  | cons first rest =>
    cases digit : first.isDigit with
    | false =>
      refine .inl ⟨by simp [digit], fun number h => ?_⟩
      cases h <;> simp_all
    | true =>
      obtain ⟨alone, both⟩ := below?_digits digit
      right
      cases rest with
      | nil =>
        refine ⟨_, [first], [], rfl, by simp [digit], by simp, alone, fun number => ?_⟩
        refine ⟨fun h => ?_, fun h => h ▸ .one digit (by simp)⟩
        cases h
        rfl
      | cons second rest =>
        cases digit' : second.isDigit with
        | false =>
          refine ⟨_, [first], second :: rest, rfl, by simp [digit, digit'], by simp, alone,
            fun number => ⟨fun h => ?_, fun h => h ▸ .one digit (by simp [digit'])⟩⟩
          cases h with
          | one => rfl
          | two _ wrong => simp [digit'] at wrong
        | true =>
          refine ⟨_, [first, second], rest, rfl, by simp [digit, digit'], by simp, both digit',
            fun number => ⟨fun h => ?_, fun h => h ▸ .two digit digit'⟩⟩
          cases h with
          | one _ wrong => simp [digit'] at wrong
          | two => rfl

/-! ## The search over bytes -/

/-- The bytes that encode some characters. -/
def encoded (text : List Char) : List UInt8 := text.flatMap String.utf8EncodeChar

/-- Characters behind others are encoded behind them. -/
theorem encoded_append (first second : List Char) :
    encoded (first ++ second) = encoded first ++ encoded second := List.flatMap_append

/-- A byte is a digit if its value is in the range of the digits. -/
theorem isDigitByte_eq (byte : UInt8) :
    isDigitByte byte = decide (48 ≤ byte.toNat ∧ byte.toNat ≤ 57) := by
  rw [isDigitByte, ← Bool.decide_and]
  simp only [UInt8.le_iff_toNat_le]
  rfl

/-- The first byte of a character does not continue one, and tells a digit, the letter
and the percent sign from all other characters. -/
theorem exists_first_byte (c : Char) : ∃ first more,
    String.utf8EncodeChar c = first :: more ∧ (first < 0x80 ∨ 0xC0 ≤ first) ∧
      isDigitByte first = c.isDigit ∧ (first = localized ↔ c = 'L') := by
  have code : c = 'L' ↔ c.toNat = 76 :=
    ⟨fun same => by rw [same]; rfl, fun same => Char.toNat_inj.mp same⟩
  have digit : c.isDigit = decide (48 ≤ c.toNat ∧ c.toNat ≤ 57) := by
    rw [Char.isDigit, ← Bool.decide_and]
    simp only [ge_iff_le, UInt32.le_iff_toNat_le]
    rfl
  have value : localized.toNat = 76 := rfl
  rw [code, digit]
  obtain ⟨first, more, shape, cases⟩ := Utf8.exists_first_byte c
  refine ⟨first, more, shape, ?_, ?_, ?_⟩
  · rw [UInt8.lt_iff_toNat_lt, UInt8.le_iff_toNat_le]
    exact cases.imp (fun ⟨small, same, _⟩ => same ▸ small) fun ⟨_, starts, _⟩ => starts
  · rw [isDigitByte_eq, decide_eq_decide]
    omega
  · rw [← UInt8.toNat_inj, value]
    omega

/-- No byte of another character is that of the percent sign. -/
theorem ne_percent_of_mem {c : Char} (other : c ≠ '%') {byte : UInt8}
    (member : byte ∈ String.utf8EncodeChar c) : byte ≠ percent := by
  have value : percent.toNat = 37 := rfl
  rw [Ne, ← UInt8.toNat_inj, value]
  rcases Nat.lt_or_ge c.toNat 128 with small | large
  · rw [Utf8.utf8EncodeChar_of_ascii small, List.mem_singleton] at member
    have same : byte.toNat = c.toNat := by
      rw [member]
      exact Nat.mod_eq_of_lt (by omega)
    intro wrong
    exact other (Char.toNat_inj.mp (same.symm.trans wrong))
  · have outside := (Utf8.utf8EncodeChar_of_not_ascii large).1 byte member
    omega

/-- Of an encoded text as many bytes in front are digits as there are digits in front
of the text. -/
theorem length_takeWhile_encoded (count : Nat) (text : List Char) :
    (((encoded text).take count).takeWhile isDigitByte).length =
      ((text.take count).takeWhile Char.isDigit).length := by
  induction text generalizing count with
  | nil => simp [encoded]
  | cons c rest ih =>
    cases count with
    | zero => rfl
    | succ count =>
      obtain ⟨first, more, shape, _, digit, _⟩ := exists_first_byte c
      rw [encoded, List.flatMap_cons, shape, List.cons_append, List.take_succ_cons,
        List.take_succ_cons, List.takeWhile_cons, List.takeWhile_cons, digit]
      cases isDigit : c.isDigit with
      | false => rfl
      | true =>
        have small : c.toNat < 128 := Nat.lt_of_le_of_lt (digit_bounds isDigit).2 (by decide)
        rw [Utf8.utf8EncodeChar_of_ascii small] at shape
        injection shape with _ none
        simp only [if_true, List.length_cons, ← none, List.nil_append]
        rw [← encoded, ih]

/-- An encoded text begins with the byte of the letter if the text begins with the letter. -/
theorem head_encoded (text : List Char) :
    (encoded text).head? = some localized ↔ text.head? = some 'L' := by
  cases text with
  | nil => simp [encoded]
  | cons c rest =>
    obtain ⟨first, more, shape, _, _, letter⟩ := exists_first_byte c
    rw [encoded, List.flatMap_cons, shape, List.cons_append, List.head?_cons, List.head?_cons,
      Option.some.injEq, Option.some.injEq, letter]

/-- Between two characters there is a boundary. -/
theorem isBoundary_of_split {bytes : Array UInt8} {front : List UInt8} {text : List Char}
    (split : bytes.toList = front ++ encoded text) : isBoundary bytes front.length = true := by
  have there : bytes[front.length]? = (encoded text).head? := by
    rw [← Array.getElem?_toList, split, List.getElem?_append_right (Nat.le_refl _), Nat.sub_self,
      List.head?_eq_getElem?]
  rw [isBoundary, there]
  cases text with
  | nil =>
    have size : bytes.size = front.length := by
      rw [← Array.length_toList, split, encoded, List.flatMap_nil, List.append_nil]
    simp [encoded, size]
  | cons c rest =>
    obtain ⟨first, more, shape, starts, _⟩ := exists_first_byte c
    simpa [encoded, shape] using starts

/-- The text between two boundaries. -/
theorem slice?_of_split {bytes : Array UInt8} {front : List UInt8} {inside behind : List Char}
    (split : bytes.toList = front ++ (encoded inside ++ encoded behind)) :
    slice? bytes front.length (front.length + (encoded inside).length) =
      some (String.ofList inside) := by
  have left : isBoundary bytes front.length = true :=
    isBoundary_of_split (show bytes.toList = front ++ encoded (inside ++ behind) by
      rw [split, encoded_append])
  have right : isBoundary bytes (front.length + (encoded inside).length) = true := by
    rw [← List.length_append]
    exact isBoundary_of_split (by rw [split, List.append_assoc])
  have between : (String.ofList inside).toUTF8 =
      ⟨bytes.extract front.length (front.length + (encoded inside).length)⟩ := by
    refine ByteArray.ext (Array.toList_inj.mp ?_)
    have own := Utf8.bytes_eq_flatMap (String.ofList inside)
    rw [Utf8.bytes, String.toList_ofList] at own
    rw [own, Array.toList_extract, split, List.extract_eq_take_drop, List.drop_left,
      Nat.add_sub_cancel_left, List.take_left]
    rfl
  rw [slice?, if_pos ⟨Nat.le_add_right _ _, left, right⟩, Utf8.decode_eq_ok_iff.mpr between]
  rfl

/-- A list has the number that is put into it, and those from before. -/
theorem mem_insert {number other : Nat} {found : List Nat} :
    other ∈ insert number found ↔ other = number ∨ other ∈ found := by
  induction found with
  | nil => simp [insert]
  | cons first rest ih =>
    unfold insert
    split
    · simp
    · split
      next same => simp [same]
      next => simp only [List.mem_cons, ih, or_left_comm]

/-- An ascending list stays one when a number is put into it. -/
theorem pairwise_insert {number : Nat} {found : List Nat} (ascending : found.Pairwise (· < ·)) :
    (insert number found).Pairwise (· < ·) := by
  induction found with
  | nil => simp [insert]
  | cons first rest ih =>
    obtain ⟨least, behind⟩ := List.pairwise_cons.mp ascending
    unfold insert
    split
    next less =>
      refine List.pairwise_cons.mpr ⟨fun other member => ?_, ascending⟩
      rcases List.mem_cons.mp member with rfl | later
      · exact less
      · exact less.trans (least other later)
    next notLess =>
      split
      next => exact ascending
      next other =>
        refine List.pairwise_cons.mpr ⟨fun greater member => ?_, ih behind⟩
        rcases mem_insert.mp member with rfl | later
        · omega
        · exact least greater later

/-- What a search makes of a list of numbers: it is as ascending as before, and has the
markers of a text. -/
structure Adds (text : List Char) (before after : List Nat) : Prop where
  /-- The numbers stay in order, each once. -/
  ascending : before.Pairwise (· < ·) → after.Pairwise (· < ·)
  /-- The markers come in, and nothing else. -/
  mem_iff : ∀ number, number ∈ after ↔ number ∈ before ∨ Has text number

/-- The number of some digits comes in unless it is zero. -/
theorem mem_add {digits : String} {value : Nat}
    (read : Radix.decimal.below? UInt32.size digits.toList = some value) {found : List Nat}
    {number : Nat} : number ∈ add digits found ↔ number ∈ found ∨ (1 ≤ number ∧ number = value) := by
  unfold add
  rw [read]
  cases value with
  | zero => simp; omega
  | succ value =>
    rw [mem_insert]
    constructor
    · rintro (rfl | before)
      · exact .inr ⟨Nat.succ_pos _, rfl⟩
      · exact .inl before
    · rintro (before | ⟨_, same⟩)
      · exact .inr before
      · exact .inl same

/-- The order is kept when the number of some digits comes in. -/
theorem pairwise_add (digits : String) {found : List Nat} (ascending : found.Pairwise (· < ·)) :
    (add digits found).Pairwise (· < ·) := by
  unfold add
  split
  · exact pairwise_insert ascending
  · exact ascending

/-- The letter in front of a number, if it is there, and what stands behind it. -/
theorem exists_letter (text : List Char) : ∃ letter tail, text = letter ++ tail ∧
    letter.length = (if text.head? = some 'L' then 1 else 0) ∧ (∀ c ∈ letter, c = 'L') ∧
    ∀ number, Behind text number ↔ Digits tail number := by
  by_cases lettered : text.head? = some 'L'
  · obtain ⟨tail, rfl⟩ := List.head?_eq_some_iff.mp lettered
    refine ⟨['L'], tail, rfl, by simp, by simp, fun number => ⟨fun h => ?_, .localized⟩⟩
    cases h with
    | plain digits =>
      have letter : 'L'.isDigit = false := by decide
      cases digits <;> simp_all
    | localized digits => exact digits
  · refine ⟨[], text, rfl, by simp [lettered], by simp, fun number => ⟨fun h => ?_, .plain⟩⟩
    cases h with
    | plain digits => exact digits
    | localized digits => exact absurd rfl lettered

/-- ASCII characters take one byte each. -/
theorem length_encoded_of_ascii {text : List Char} (ascii : ∀ c ∈ text, c.toNat < 128) :
    (encoded text).length = text.length := by
  induction text with
  | nil => rfl
  | cons c rest ih =>
    rw [encoded, List.flatMap_cons, Utf8.utf8EncodeChar_of_ascii (ascii c List.mem_cons_self),
      List.singleton_append, List.length_cons, List.length_cons]
    exact congrArg (· + 1) (ih fun d member => ascii d (List.mem_cons_of_mem _ member))

section

variable {bytes : Array UInt8} {front : List UInt8} {found : List Nat}

/-- What the search finds at an offset is the byte there. -/
theorem getElem?_of_split {byte : UInt8} {rest : List UInt8}
    (split : bytes.toList = front ++ byte :: rest) :
    ∃ inside : front.length < bytes.size, bytes[front.length] = byte := by
  have inside : front.length < bytes.size := by
    rw [← Array.length_toList, split]
    simp
  refine ⟨inside, ?_⟩
  rw [← Array.getElem_toList]
  simp [split]

/-- The search passes over bytes that are no percent sign. -/
theorem scan?_of_plain {passed behind : List UInt8}
    (split : bytes.toList = front ++ (passed ++ behind)) (plain : ∀ byte ∈ passed, byte ≠ percent) :
    scan? bytes front.length found = scan? bytes (front ++ passed).length found := by
  induction passed generalizing front with
  | nil => rw [List.append_nil]
  | cons byte passed ih =>
    obtain ⟨inside, here⟩ := getElem?_of_split split
    have behind : bytes.toList = front ++ [byte] ++ (passed ++ behind) := by
      rw [split]
      simp
    have later := ih behind fun other member => plain other (List.mem_cons_of_mem _ member)
    rw [List.append_assoc, List.singleton_append, List.length_append, List.length_singleton] at later
    rw [scan?, dif_pos inside, here, if_neg (plain byte List.mem_cons_self), later]

/-- Behind a percent sign and perhaps the letter the search looks for digits. -/
theorem digitsStart_of_split {letter tail : List Char}
    (split : bytes.toList = front ++ percent :: encoded (letter ++ tail))
    (lettered : letter.length = if (letter ++ tail).head? = some 'L' then 1 else 0) :
    digitsStart bytes front.length = (front ++ [percent]).length + letter.length := by
  have there : bytes[front.length + 1]? = (encoded (letter ++ tail)).head? := by
    rw [← Array.getElem?_toList, split, List.getElem?_append_right (Nat.le_add_right _ _),
      Nat.add_sub_cancel_left, List.getElem?_cons_succ, List.head?_eq_getElem?]
  rw [digitsStart, there, lettered, List.length_append, List.length_singleton]
  simp only [head_encoded]
  split <;> rfl

/-- At a percent sign with digits behind it the search takes their number and goes on
behind them, and at any other percent sign it goes on with the next byte. -/
theorem scan?_of_percent {letter digits rest : List Char}
    (split : bytes.toList = front ++ percent :: encoded (letter ++ (digits ++ rest)))
    (lettered : letter.length = if (letter ++ (digits ++ rest)).head? = some 'L' then 1 else 0)
    (ascii : ∀ c ∈ letter ++ digits, c.toNat < 128) (front_digits : leading (digits ++ rest) = digits) :
    scan? bytes front.length found =
      if digits = [] then scan? bytes (front ++ [percent]).length found
      else scan? bytes (front ++ percent :: encoded (letter ++ digits)).length
        (add (String.ofList digits) found) := by
  obtain ⟨inside, here⟩ := getElem?_of_split split
  have letters := length_encoded_of_ascii fun c member => ascii c (List.mem_append_left _ member)
  have numerals := length_encoded_of_ascii fun c member => ascii c (List.mem_append_right _ member)
  have start := digitsStart_of_split split lettered
  have parts : bytes.toList =
      (front ++ percent :: encoded letter) ++ (encoded digits ++ encoded rest) := by
    rw [split, encoded_append, encoded_append]
    simp
  have offset : (front ++ [percent]).length + letter.length =
      (front ++ percent :: encoded letter).length := by
    simp [letters]
    omega
  have reached : behind? bytes (front ++ percent :: encoded letter).length =
      some (encoded (digits ++ rest)) := by
    have within : (front ++ percent :: encoded letter).length ≤ bytes.size := by
      rw [← Array.length_toList, parts]
      simp
    rw [behind?, if_pos within, Array.toList_extract, parts, List.extract_eq_take_drop,
      List.drop_left, encoded_append, List.take_of_length_le]
    rw [← Array.length_toList, parts]
    simp
    omega
  have counted : digitCount (encoded (digits ++ rest)) = (encoded digits).length := by
    rw [digitCount, length_takeWhile_encoded, numerals, ← leading, front_digits]
  rw [scan?, dif_pos inside, here, if_pos rfl]
  simp only [start, offset, reached, counted]
  by_cases none : digits = []
  · subst none
    simp [encoded]
  · have some : 0 < (encoded digits).length := by
      rw [numerals]
      exact List.length_pos_iff.mpr none
    rw [if_pos (by omega), slice?_of_split parts, if_neg none, ← List.length_append, encoded_append]
    simp only [List.append_assoc, List.cons_append]

end

/-- From an offset on the search has a result, with the markers of the text there. -/
def Finds (bytes : Array UInt8) (front : List UInt8) (text : List Char) : Prop :=
  ∀ found, ∃ result, scan? bytes front.length found = some result ∧ Adds text found result

namespace Finds

variable {bytes : Array UInt8} {front : List UInt8}

/-- At the end of the text nothing is found. -/
theorem nil (split : bytes.toList = front ++ encoded []) : Finds bytes front [] := by
  intro found
  have size : bytes.size = front.length := by
    rw [← Array.length_toList, split, encoded, List.flatMap_nil, List.append_nil]
  refine ⟨found, ?_, id, fun number => by simp [not_has_nil]⟩
  rw [scan?, dif_neg (by omega)]

/-- A character that is no percent sign is passed over. -/
theorem of_plain {c : Char} {text : List Char} (split : bytes.toList = front ++ encoded (c :: text))
    (plain : c ≠ '%') (behind : Finds bytes (front ++ String.utf8EncodeChar c) text) :
    Finds bytes front (c :: text) := by
  intro found
  rw [encoded, List.flatMap_cons] at split
  obtain ⟨result, done, adds⟩ := behind found
  refine ⟨result, ?_, adds.ascending, fun number => ?_⟩
  · rw [scan?_of_plain split fun byte member => ne_percent_of_mem plain member, done]
  · rw [adds.mem_iff, has_cons]
    simp [plain]

/-- A percent sign without a number behind it is passed over alone. -/
theorem of_no_number {letter tail : List Char}
    (split : bytes.toList = front ++ percent :: encoded (letter ++ tail))
    (lettered : letter.length = if (letter ++ tail).head? = some 'L' then 1 else 0)
    (letters : ∀ c ∈ letter, c = 'L') (none : leading tail = [])
    (no_number : ∀ number, ¬Behind (letter ++ tail) number)
    (behind : Finds bytes (front ++ [percent]) (letter ++ tail)) :
    Finds bytes front ('%' :: (letter ++ tail)) := by
  intro found
  obtain ⟨result, done, adds⟩ := behind found
  refine ⟨result, ?_, adds.ascending, fun number => ?_⟩
  · have ascii : ∀ c ∈ letter ++ [], c.toNat < 128 := by
      intro c member
      rw [letters c (by simpa using member)]
      decide
    have parts : bytes.toList = front ++ percent :: encoded (letter ++ ([] ++ tail)) := split
    rw [scan?_of_percent parts lettered ascii none, if_pos rfl, done]
  · rw [adds.mem_iff, has_cons]
    simp [no_number]

/-- A percent sign with a number behind it is passed over with its digits, among which
there is no other sign. -/
theorem of_number {letter digits rest : List Char} {value : Nat}
    (split : bytes.toList = front ++ percent :: encoded (letter ++ (digits ++ rest)))
    (lettered : letter.length = if (letter ++ (digits ++ rest)).head? = some 'L' then 1 else 0)
    (letters : ∀ c ∈ letter, c = 'L') (own : leading (digits ++ rest) = digits) (some : digits ≠ [])
    (read : Radix.decimal.below? UInt32.size digits = .some value)
    (number_iff : ∀ number, Behind (letter ++ (digits ++ rest)) number ↔ number = value)
    (behind : Finds bytes (front ++ percent :: encoded (letter ++ digits)) rest) :
    Finds bytes front ('%' :: (letter ++ (digits ++ rest))) := by
  intro found
  have digit (c : Char) (member : c ∈ digits) : c.isDigit = true := by
    rw [← own] at member
    exact List.all_eq_true.mp List.all_takeWhile c member
  obtain ⟨result, done, adds⟩ := behind (add (String.ofList digits) found)
  refine ⟨result, ?_, fun before => adds.ascending (pairwise_add _ before), fun number => ?_⟩
  · have ascii : ∀ c ∈ letter ++ digits, c.toNat < 128 := by
      intro c member
      rcases List.mem_append.mp member with letter | inside
      · rw [letters c letter]
        decide
      · exact Nat.lt_of_le_of_lt (digit_bounds (digit c inside)).2 (by decide)
    rw [scan?_of_percent split lettered ascii own, if_neg some, done]
  · have passed : Has (letter ++ (digits ++ rest)) number ↔ Has rest number := by
      rw [← List.append_assoc]
      refine has_append fun c member => ?_
      rcases List.mem_append.mp member with letter | inside
      · rw [letters c letter]
        decide
      · exact ne_of_digit (digit c inside) (by decide)
    rw [adds.mem_iff, mem_add (by rw [String.toList_ofList]; exact read), has_cons, passed,
      number_iff, or_assoc]
    simp

end Finds

/-- From the front of any characters on the search finds their markers. -/
theorem finds {bytes : Array UInt8} {front : List UInt8} {text : List Char}
    (split : bytes.toList = front ++ encoded text) : Finds bytes front text := by
  match text with
  | [] => exact .nil split
  | c :: text =>
    by_cases sign : c = '%'
    · rw [sign] at split ⊢
      have split' : bytes.toList = front ++ percent :: encoded text := split
      obtain ⟨letter, tail, whole, lettered, letters, behind⟩ := exists_letter text
      rcases digits_cases tail with
        ⟨none, no_number⟩ | ⟨value, digits, rest, rfl, own, some, read, number_iff⟩
      · have later : Finds bytes (front ++ [percent]) text :=
          finds (by rw [split', List.append_assoc]; rfl)
        rw [whole] at split' lettered later behind ⊢
        exact .of_no_number split' lettered letters none (fun number => by simp [behind, no_number])
          later
      · have shorter : rest.length ≤ text.length := by
          rw [whole]
          simp only [List.length_append]
          omega
        have later : Finds bytes (front ++ percent :: encoded (letter ++ digits)) rest :=
          finds (by rw [split', whole]; simp [encoded_append])
        rw [whole] at split' lettered behind ⊢
        exact .of_number split' lettered letters own some read
          (fun number => by rw [behind, number_iff]) later
    · have later : Finds bytes (front ++ String.utf8EncodeChar c) text :=
        finds (by rw [split, List.append_assoc]; rfl)
      exact .of_plain split sign later
termination_by text.length

/-- Every search has a result: ascending numbers, those of the markers of the text. -/
theorem scan?_eq_some (text : String) :
    scan? text.toUTF8.data 0 [] = some (numbers text) ∧ Adds text.toList [] (numbers text) := by
  have split : text.toUTF8.data.toList = [] ++ encoded text.toList := Utf8.bytes_eq_flatMap text
  obtain ⟨result, done, adds⟩ := finds split []
  have same : numbers text = result := by
    rw [numbers]
    exact congrArg (·.getD []) done
  exact same ▸ ⟨done, adds⟩

example : numbers "%%1 %L%2 %123 %L" = [1, 2, 12] := by decide

/-! ## Comparing a translation with its source -/

/-- The numbers of a text are those of its markers. -/
theorem mem_numbers {text : String} {number : Nat} :
    number ∈ numbers text ↔ Has text.toList number := by
  simpa using (scan?_eq_some text).2.mem_iff number

/-- The numbers of a text are ascending. -/
theorem pairwise_numbers (text : String) : (numbers text).Pairwise (· < ·) :=
  (scan?_eq_some text).2.ascending .nil

/-- Numbers differ that are in one list and not in the other. -/
theorem mem_differing {left right : List Nat} {number : Nat} :
    number ∈ differing left right ↔ Xor (number ∈ left) (number ∈ right) := by
  simp [differing, Xor, and_comm]

/-- Numbers that are put into an ascending list one after the other are in an ascending
list. -/
theorem foldl_insert (news found : List Nat) :
    (found.Pairwise (· < ·) →
      (news.foldl (fun found number => insert number found) found).Pairwise (· < ·)) ∧
    ∀ number, number ∈ news.foldl (fun found number => insert number found) found ↔
      number ∈ news ∨ number ∈ found := by
  induction news generalizing found with
  | nil => simp
  | cons new news ih =>
    obtain ⟨ascending, members⟩ := ih (insert new found)
    refine ⟨fun before => ascending (pairwise_insert before), fun number => ?_⟩
    rw [List.foldl_cons, members, mem_insert, List.mem_cons]
    tauto

/-- A marker is a mismatch if only one of the source and some translated text has it. -/
theorem mem_mismatches {source : String} {texts : List String} {number : Nat} :
    number ∈ mismatches source texts ↔
      ∃ text ∈ texts, text ≠ "" ∧ Xor (Has source.toList number) (Has text.toList number) := by
  simp [mismatches, (foldl_insert _ []).2, mem_differing, mem_numbers, and_assoc]

/-- The mismatches are ascending. -/
theorem pairwise_mismatches (source : String) (texts : List String) :
    (mismatches source texts).Pairwise (· < ·) :=
  (foldl_insert _ []).1 .nil

end PlaceMarker

/-- The number of the marker that a problem is about. -/
def Problem.marker? : Problem → Option Nat
  | placeMarker number => some number
  | _ => none

/-- The marker that a finding is about, with the context and the source of its message. -/
def Finding.marker? (finding : Finding) : Option (String × String × Nat) :=
  finding.problem.marker?.map (finding.context, finding.source, ·)

/-- The markers among the problems of a message are its mismatches, if they are looked
for. -/
theorem Message.filterMap_marker?_problems (checks : Checks) (formCount : Nat)
    (seen : List (String × String)) (message : Message) :
    (message.problems checks formCount seen).filterMap Problem.marker? =
      if checks.placeMarkers then
        PlaceMarker.mismatches message.source message.translation.texts
      else [] := by
  have repetition (repeated : Bool) : (if repeated then [Problem.duplicate] else []).filterMap
      Problem.marker? = [] := by
    cases repeated <;> rfl
  have whole : (message.translationProblem? checks formCount).toList.filterMap
      Problem.marker? = [] := by
    unfold translationProblem?
    split <;> split <;> rfl
  rw [problems, List.filterMap_append, List.filterMap_append, repetition, whole]
  cases checks.placeMarkers <;> simp [Function.comp_def, Problem.marker?]

/-- A review of some messages finds their mismatches, if they are looked for. -/
theorem Context.filterMap_marker?_reviewFrom (checks : Checks) (formCount : Nat) (name : String)
    (seen : List (String × String)) (messages : List Message) :
    (reviewFrom checks formCount name seen messages).filterMap Finding.marker? =
      if checks.placeMarkers then
        messages.flatMap fun message =>
          (PlaceMarker.mismatches message.source message.translation.texts).map
            (name, message.source, ·)
      else [] := by
  induction messages generalizing seen with
  | nil => simp [reviewFrom]
  | cons first rest ih =>
    have own : ((first.problems checks formCount seen).map
        fun problem => (⟨name, first.source, problem⟩ : Finding)).filterMap Finding.marker? =
          ((first.problems checks formCount seen).filterMap Problem.marker?).map
            (name, first.source, ·) := by
      rw [List.filterMap_map, List.map_filterMap]
      rfl
    rw [reviewFrom, List.filterMap_append, ih, own, Message.filterMap_marker?_problems]
    cases checks.placeMarkers <;> simp

/-- A search for markers has a result for every text: ascending, the numbers of the
markers that the characters of the text tell. A review that looks for markers reports
those of each live message, ascending, that only one of the source and some translated
text has. -/
theorem PlaceMarker.found_and_compared :
    (∀ text : String, scan? text.toUTF8.data 0 [] = some (numbers text) ∧
      (numbers text).Pairwise (· < ·) ∧
      ∀ number, number ∈ numbers text ↔ Has text.toList number) ∧
    (∀ (checks : Checks) (catalog : Catalog),
      (catalog.review checks).map (List.filterMap Finding.marker?) =
        catalog.pluralRule.map fun _ =>
          if checks.placeMarkers then
            catalog.contexts.flatMap fun context => context.live.flatMap fun message =>
              (mismatches message.source message.translation.texts).map
                (context.name, message.source, ·)
          else []) ∧
    ∀ message : Message,
      (mismatches message.source message.translation.texts).Pairwise (· < ·) ∧
      ∀ number, number ∈ mismatches message.source message.translation.texts ↔
        ∃ text ∈ message.translation.texts, text ≠ "" ∧
          Xor (Has message.source.toList number) (Has text.toList number) := by
  refine ⟨fun text => ⟨(scan?_eq_some text).1, pairwise_numbers text, fun _ => mem_numbers⟩,
    fun checks catalog => ?_, fun message => ⟨pairwise_mismatches _ _, fun _ => mem_mismatches⟩⟩
  have found (formCount : Nat) (context : Context) :=
    Context.filterMap_marker?_reviewFrom checks formCount context.name [] context.live
  rw [Catalog.review]
  cases catalog.pluralRule with
  | error fault => rfl
  | ok rule =>
    simp only [Except.map, List.filterMap_flatMap, Context.review, found]
    cases checks.placeMarkers <;> simp

end MessageCatalog
