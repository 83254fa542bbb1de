import Mathlib.Data.List.Lex
import Mathlib.Data.String.Basic
import Mathlib.Tactic.SplitIfs
import MessageCatalog.Utf8

/-!
# Bytes of a text

Bytes are decoded exactly when they are the encoding of a text. The encoding is
a code with prefixes: where the first bytes of an encoded text are well formed
themselves, they encode its first characters. The bytes of a character tell their
place: the first one is in ASCII or large, and all others lie between. Texts stand in
the order of their characters' codes, and the bytes that encode them stand in the same
order: a greater code is encoded by greater bytes, and none of its bytes is left to be
compared with those of the next character.
-/

namespace MessageCatalog.Utf8

/-- Bytes decode to the text that they encode. -/
theorem decode_eq_ok_iff {bytes : ByteArray} {text : String} :
    decode bytes = .ok text ↔ text.toUTF8 = bytes := by
  unfold decode String.fromUTF8?
  by_cases valid : bytes.IsValidUTF8
  · rw [dif_pos valid]
    simp only [Except.ok.injEq]
    rw [← String.toByteArray_inj]
    exact eq_comm
  · rw [dif_neg valid]
    refine iff_of_false (by simp) ?_
    rintro rfl
    exact valid text.isValidUTF8

/-- Bytes that encode no text are a fault. -/
theorem decode_of_not_valid {bytes : ByteArray} (h : ¬bytes.IsValidUTF8) :
    decode bytes = .error (validUpTo bytes 0) := by
  unfold decode String.fromUTF8?
  rw [dif_neg h]

/-- Bytes that are well formed encode a text. -/
theorem exists_text_of_valid {bytes : ByteArray} (h : bytes.IsValidUTF8) :
    ∃ text : String, text.toUTF8 = bytes :=
  ⟨.ofByteArray bytes h, rfl⟩

/-- The bytes of a text behind others are counted from there. -/
theorem foldl_utf8Size (start : Nat) (text : List Char) :
    text.foldl (fun n c => n + c.utf8Size) start = start + text.utf8Encode.size := by
  induction text generalizing start with
  | nil => rfl
  | cons c rest ih =>
    rw [List.foldl_cons, ih, List.utf8Encode_cons, ByteArray.size_append, List.utf8Encode_singleton,
      List.size_toByteArray, String.length_utf8EncodeChar, Nat.add_assoc]

/-- The length of a text is the number of its bytes. -/
theorem length_eq_size (text : List Char) : length text = text.utf8Encode.size := by
  rw [length, foldl_utf8Size, Nat.zero_add]

/-- The lengths of two parts add up. -/
theorem length_append (first second : List Char) :
    length (first ++ second) = length first + length second := by
  simp only [length_eq_size, List.utf8Encode_append, ByteArray.size_append]

/-- The length of a text is that of its first character and of what is behind it. -/
theorem length_cons (c : Char) (rest : List Char) :
    length (c :: rest) = c.utf8Size + length rest := by
  rw [length, List.foldl_cons, foldl_utf8Size, length_eq_size, Nat.zero_add]

/-- The bytes of a text are those of its characters. -/
theorem size_toUTF8 (text : String) : text.toUTF8.size = length text.toList := by
  rw [length_eq_size, String.utf8Encode_toList]
  rfl

/-- The first bytes of an encoded text encode its first characters, if they are
well formed. -/
theorem exists_take_of_extract {text first : String} {count : Nat}
    (h : first.toUTF8 = text.toUTF8.extract 0 count) :
    ∃ rest, text.toList = first.toList ++ rest := by
  have whole : first.toList.utf8Encode ++ text.toUTF8.extract count text.toUTF8.size =
      text.toList.utf8Encode := by
    rw [String.utf8Encode_toList, String.utf8Encode_toList]
    have joined : text.toUTF8.extract 0 count ++ text.toUTF8.extract count text.toUTF8.size =
        text.toUTF8 := by
      rw [ByteArray.extract_append_extract, ByteArray.ext_iff, ByteArray.data_extract, Nat.zero_min]
      exact Array.extract_eq_self_of_le (Nat.le_max_right count text.toUTF8.size)
    rw [← h] at joined
    exact joined
  obtain ⟨rest, same⟩ := List.isPrefix_of_utf8Encode_append_eq_utf8Encode _ whole
  exact ⟨rest, same.symm⟩

/-- An ASCII character is one byte. -/
theorem utf8EncodeChar_of_ascii {c : Char} (small : c.toNat < 128) :
    String.utf8EncodeChar c = [c.toNat.toUInt8] := by
  have single : c.utf8Size = 1 := by
    rw [Char.utf8Size_eq_one_iff, UInt32.le_iff_toNat_le]
    exact Nat.le_of_lt_succ small
  rw [String.utf8EncodeChar_eq_singleton single]
  congr 1

/-- The bytes of any other character are outside ASCII, and only its first byte does not
continue a character. -/
theorem utf8EncodeChar_of_not_ascii {c : Char} (large : 128 ≤ c.toNat) :
    (∀ byte ∈ String.utf8EncodeChar c, 128 ≤ byte.toNat) ∧
      ∃ first more, String.utf8EncodeChar c = first :: more ∧ 192 ≤ first.toNat ∧
        ∀ byte ∈ more, byte.toNat < 192 := by
  have codes : 128 ≤ c.val.toNat := large
  have bound : c.val.toNat < 1114112 := by
    have valid := c.valid
    simp only [UInt32.isValidChar, Nat.isValidChar] at valid
    omega
  unfold String.utf8EncodeChar
  dsimp only
  generalize c.val.toNat = n at codes bound
  split_ifs
  · omega
  all_goals
    refine ⟨?_, _, _, rfl, ?_, ?_⟩
    all_goals
      simp only [List.mem_cons, List.not_mem_nil, or_false, forall_eq_or_imp, forall_eq,
        UInt8.toNat_ofNat', Nat.reducePow]
      omega

/-- The first byte of a character is the character itself if that is in ASCII. Otherwise it is
large, and the bytes behind it lie between ASCII and the large ones. -/
theorem exists_first_byte (c : Char) : ∃ lead more, String.utf8EncodeChar c = lead :: more ∧
    (c.toNat < 128 ∧ lead.toNat = c.toNat ∧ more = [] ∨
      128 ≤ c.toNat ∧ 192 ≤ lead.toNat ∧ ∀ byte ∈ more, 128 ≤ byte.toNat ∧ byte.toNat < 192) := by
  rcases Nat.lt_or_ge c.toNat 128 with small | large
  · have value : c.toNat.toUInt8.toNat = c.toNat := Nat.mod_eq_of_lt (by omega)
    exact ⟨c.toNat.toUInt8, [], utf8EncodeChar_of_ascii small, .inl ⟨small, value, rfl⟩⟩
  · obtain ⟨outside, lead, more, shape, starts, goes⟩ := utf8EncodeChar_of_not_ascii large
    refine ⟨lead, more, shape, .inr ⟨large, starts, fun byte member => ?_⟩⟩
    exact ⟨outside byte (shape ▸ List.mem_cons_of_mem lead member), goes byte member⟩

/-! ## Byte order -/

/-- The bytes that encode a text. -/
def bytes (text : String) : List UInt8 := text.toUTF8.data.toList

/-- A text is encoded character by character. -/
theorem bytes_eq_flatMap (text : String) :
    bytes text = text.toList.flatMap String.utf8EncodeChar := by
  have encoded : text.toUTF8 = text.toList.utf8Encode := String.utf8Encode_toList.symm
  rw [bytes, encoded, List.utf8Encode, List.data_toByteArray]

/-- Whatever stands behind two characters, the bytes of the one with the lower code come
first. Codes of different lengths differ in the first byte, codes of one length in the first
of the digits that their bytes carry. -/
theorem utf8EncodeChar_append_lt {c d : Char} (less : c < d) (first second : List UInt8) :
    String.utf8EncodeChar c ++ first < String.utf8EncodeChar d ++ second := by
  have codes : c.val.toNat < d.val.toNat := less
  have bound : d.val.toNat < 1114112 := by
    have valid := d.valid
    simp only [UInt32.isValidChar, Nat.isValidChar] at valid
    omega
  unfold String.utf8EncodeChar
  dsimp only
  generalize c.val.toNat = m at codes
  generalize d.val.toNat = n at codes bound
  split_ifs
  all_goals
    simp only [List.cons_append, List.nil_append, List.cons_lt_cons_iff, UInt8.lt_iff_toNat_lt,
      ← UInt8.toNat_inj, UInt8.toNat_ofNat', Nat.reducePow]
    simp (disch := omega) only [Nat.mod_eq_of_lt]
    omega

/-- The bytes of a text that comes first come first. -/
theorem flatMap_lt_of_lt {first second : List Char} (less : first < second) :
    first.flatMap String.utf8EncodeChar < second.flatMap String.utf8EncodeChar := by
  induction less with
  | nil =>
    obtain ⟨byte, more, some⟩ := List.exists_cons_of_ne_nil String.utf8EncodeChar_ne_nil
    rw [List.flatMap_nil, List.flatMap_cons, some]
    exact List.nil_lt_cons _ _
  | rel less =>
    rw [List.flatMap_cons, List.flatMap_cons]
    exact utf8EncodeChar_append_lt less _ _
  | cons _ ih =>
    rw [List.flatMap_cons, List.flatMap_cons]
    exact List.append_left_lt ih

/-- Texts stand in the order of their bytes. -/
theorem lt_iff_bytes_lt {first second : String} : first < second ↔ bytes first < bytes second := by
  have forward {first second : String} (less : first < second) : bytes first < bytes second := by
    rw [bytes_eq_flatMap, bytes_eq_flatMap]
    exact flatMap_lt_of_lt (String.lt_iff_toList_lt.mp less)
  refine ⟨forward, fun less => ?_⟩
  rcases lt_trichotomy first second with before | same | behind
  · exact before
  · rw [same] at less
    exact absurd less (List.lt_irrefl _)
  · exact absurd less (List.lt_asymm (forward behind))

end MessageCatalog.Utf8
