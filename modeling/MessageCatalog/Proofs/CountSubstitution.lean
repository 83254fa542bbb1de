import Mathlib.Data.List.Chain
import MessageCatalog.Proofs.LineNumberText
import MessageCatalog.TranslatorSet

/-!
# Counts in texts

A template is read as the texts between its count marks. Marks do not overlap, so
there is one way only to take a template apart, and substituting a count puts the
numeral where the marks were. A numeral holds no character of the mark: no new mark
arises where it meets the text around it, and a text with a count in it is final.
-/

namespace MessageCatalog

/-- The mark that a count takes the place of. -/
def countMark : List Char := ['%', 'n']

/-- A template is some texts with a mark between each two of them, and there is no
mark in any of these texts. -/
structure Separates (pieces : List (List Char)) (template : List Char) : Prop where
  /-- There is a text even if there are no marks. -/
  pieces_ne_nil : pieces ≠ []
  /-- No text holds a mark. -/
  unmarked : ∀ piece ∈ pieces, ¬countMark <:+: piece
  /-- With the marks between them the texts are the template. -/
  joined : countMark.intercalate pieces = template

/-- The texts between the marks of a template, found from front to back. -/
def betweenMarks : List Char → List (List Char)
  | [] => [[]]
  | '%' :: 'n' :: rest => [] :: betweenMarks rest
  | c :: rest => (betweenMarks rest).modifyHead (c :: ·)

/-! ## Taking a template apart -/

/-- A text in front of others, with a separator between each two. -/
theorem intercalate_cons_of_ne_nil {separator piece : List Char} {rest : List (List Char)}
    (more : rest ≠ []) :
    separator.intercalate (piece :: rest) = piece ++ (separator ++ separator.intercalate rest) := by
  obtain ⟨next, others, rfl⟩ := List.exists_cons_of_ne_nil more
  rw [List.intercalate_cons_cons, List.append_assoc]

/-- A character at the front of the first text stands in front of all. -/
theorem intercalate_cons_cons_char {separator piece : List Char} {rest : List (List Char)}
    (c : Char) :
    separator.intercalate ((c :: piece) :: rest) = c :: separator.intercalate (piece :: rest) := by
  cases rest with
  | nil => simp
  | cons next others => simp [List.intercalate_cons_cons]

/-- A text with one more character in front holds no mark if it held none and does not
begin with one. -/
theorem unmarked_cons_iff {c : Char} {text : List Char} :
    ¬countMark <:+: c :: text ↔ ¬(c = '%' ∧ text.head? = some 'n') ∧ ¬countMark <:+: text := by
  have begins : countMark <+: c :: text ↔ c = '%' ∧ text.head? = some 'n' := by
    rw [countMark, List.cons_prefix_cons, eq_comm]
    refine and_congr_right fun _ => ?_
    cases text with
    | nil => simp
    | cons second rest => simp [List.cons_prefix_cons, eq_comm]
  rw [List.infix_cons_iff, not_or, begins]

namespace Separates

variable {piece rest : List Char} {pieces : List (List Char)}

/-- A text without characters is one text. -/
theorem nil : Separates [[]] [] := ⟨by simp, by simp [countMark], by simp⟩

/-- A mark in front separates an empty text. -/
theorem mark (h : Separates pieces rest) : Separates ([] :: pieces) ('%' :: 'n' :: rest) where
  pieces_ne_nil := List.cons_ne_nil _ _
  unmarked := List.forall_mem_cons.mpr ⟨by simp [countMark], h.unmarked⟩
  joined := by
    rw [intercalate_cons_of_ne_nil h.pieces_ne_nil, h.joined]
    rfl

/-- Any other character in front belongs to the first text. -/
theorem cons {c : Char} (h : Separates (piece :: pieces) rest)
    (plain : ¬(c = '%' ∧ rest.head? = some 'n')) :
    Separates ((c :: piece) :: pieces) (c :: rest) where
  pieces_ne_nil := List.cons_ne_nil _ _
  unmarked := by
    obtain ⟨first, others⟩ := List.forall_mem_cons.mp h.unmarked
    refine List.forall_mem_cons.mpr ⟨unmarked_cons_iff.mpr ⟨fun begins => plain ⟨begins.1, ?_⟩, first⟩,
      others⟩
    obtain ⟨more, rfl⟩ := List.head?_eq_some_iff.mp begins.2
    rw [← h.joined, intercalate_cons_cons_char]
    rfl
  joined := by rw [intercalate_cons_cons_char, h.joined]

/-- A text without characters is only one text. -/
theorem eq_of_nil (h : Separates pieces []) : pieces = [[]] := by
  obtain ⟨piece, others, rfl⟩ := List.exists_cons_of_ne_nil h.pieces_ne_nil
  have joined := h.joined
  cases others with
  | nil => simpa using joined
  | cons next others =>
    rw [List.intercalate_cons_cons] at joined
    simp [countMark] at joined

/-- What a mark in front separates is an empty text. -/
theorem of_mark (h : Separates pieces ('%' :: 'n' :: rest)) :
    ∃ others, pieces = [] :: others ∧ Separates others rest := by
  obtain ⟨piece, others, rfl⟩ := List.exists_cons_of_ne_nil h.pieces_ne_nil
  obtain ⟨first, unmarked⟩ := List.forall_mem_cons.mp h.unmarked
  have joined := h.joined
  cases piece with
  | nil =>
    cases others with
    | nil => simp at joined
    | cons next more =>
      rw [List.intercalate_cons_cons] at joined
      refine ⟨_, rfl, List.cons_ne_nil _ _, unmarked, ?_⟩
      simpa [countMark] using joined
  | cons c piece =>
    rw [intercalate_cons_cons_char] at joined
    injection joined with same joined
    subst same
    refine absurd ⟨rfl, ?_⟩ (unmarked_cons_iff.mp first).1
    cases piece with
    | cons second piece =>
      rw [intercalate_cons_cons_char] at joined
      injection joined with same
      rw [same]
      rfl
    | nil =>
      cases others with
      | nil => simp at joined
      | cons next more =>
        rw [List.intercalate_cons_cons] at joined
        simp [countMark] at joined

/-- Any other character in front is that of the first text. -/
theorem of_cons {c : Char} (h : Separates pieces (c :: rest))
    (plain : ¬(c = '%' ∧ rest.head? = some 'n')) :
    ∃ piece others, pieces = (c :: piece) :: others ∧ Separates (piece :: others) rest := by
  obtain ⟨piece, others, rfl⟩ := List.exists_cons_of_ne_nil h.pieces_ne_nil
  obtain ⟨first, unmarked⟩ := List.forall_mem_cons.mp h.unmarked
  have joined := h.joined
  cases piece with
  | nil =>
    cases others with
    | nil => simp at joined
    | cons next more =>
      rw [List.intercalate_cons_cons] at joined
      simp only [countMark, List.nil_append, List.cons_append, List.cons.injEq] at joined
      exact absurd ⟨joined.1.symm, by rw [← joined.2]; rfl⟩ plain
  | cons first' piece =>
    rw [intercalate_cons_cons_char] at joined
    injection joined with same joined
    subst same
    exact ⟨piece, others, rfl, List.cons_ne_nil _ _,
      List.forall_mem_cons.mpr ⟨(unmarked_cons_iff.mp first).2, unmarked⟩, joined⟩

end Separates

/-- A template that does not begin with a mark goes on with any other character. -/
theorem not_begins {c : Char} {rest : List Char}
    (other : ∀ more, c = '%' → rest = 'n' :: more → False) :
    ¬(c = '%' ∧ rest.head? = some 'n') := by
  rintro ⟨percent, begins⟩
  obtain ⟨more, same⟩ := List.head?_eq_some_iff.mp begins
  exact other more percent same

/-- What is found from front to back are the texts between the marks. -/
theorem separates_betweenMarks (template : List Char) :
    Separates (betweenMarks template) template := by
  fun_induction betweenMarks template with
  | case1 => exact .nil
  | case2 rest ih => exact ih.mark
  | case3 c rest other ih =>
    obtain ⟨piece, others, same⟩ := List.exists_cons_of_ne_nil ih.pieces_ne_nil
    rw [same] at ih ⊢
    exact ih.cons (not_begins other)

/-- There are no other texts between the marks of a template. -/
theorem Separates.eq_betweenMarks {pieces : List (List Char)} {template : List Char}
    (h : Separates pieces template) : pieces = betweenMarks template := by
  fun_induction betweenMarks template generalizing pieces with
  | case1 => exact h.eq_of_nil
  | case2 rest ih =>
    obtain ⟨others, rfl, behind⟩ := h.of_mark
    rw [ih behind]
  | case3 c rest other ih =>
    obtain ⟨piece, others, rfl, behind⟩ := h.of_cons (not_begins other)
    rw [← ih behind]
    rfl

/-! ## Putting a numeral in -/

/-- Substitution puts the numeral where the marks are. -/
theorem toList_substituteFrom (numeral out : String) (template : List Char) :
    (substituteFrom numeral out template).toList =
      out.toList ++ numeral.toList.intercalate (betweenMarks template) := by
  fun_induction substituteFrom numeral out template with
  | case1 out => simp [betweenMarks]
  | case2 out rest ih =>
    rw [ih, betweenMarks, intercalate_cons_of_ne_nil (separates_betweenMarks rest).pieces_ne_nil,
      String.toList_append, List.append_assoc, List.nil_append]
  | case3 out c rest other ih =>
    obtain ⟨piece, others, same⟩ :=
      List.exists_cons_of_ne_nil (separates_betweenMarks rest).pieces_ne_nil
    rw [ih, betweenMarks.eq_3 c rest other, same, List.modifyHead_cons, intercalate_cons_cons_char]
    simp

/-- A text between numerals is the text, with the numerals behind and in front of it. -/
theorem toList_substituteCount (template : String) (count : Nat) :
    (substituteCount template count).toList =
      count.repr.toList.intercalate (betweenMarks template.toList) := by
  rw [substituteCount, toList_substituteFrom]
  rfl

/-! ## No mark is left -/

/-- Two characters that stand side by side are no mark. -/
def NoMark (first second : Char) : Prop := ¬(first = '%' ∧ second = 'n')

/-- A text holds no mark exactly if no two neighbours in it are one. -/
theorem unmarked_iff_isChain {text : List Char} :
    ¬countMark <:+: text ↔ text.IsChain NoMark := by
  induction text with
  | nil => simp [countMark]
  | cons c rest ih =>
    rw [unmarked_cons_iff, ih]
    cases rest with
    | nil => simp
    | cons second rest => simp [NoMark, List.isChain_cons_cons]

/-- The characters of a numeral are none of a mark. -/
theorem repr_foreign {count : Nat} {c : Char} (member : c ∈ count.repr.toList) :
    c ≠ '%' ∧ c ≠ 'n' := by
  rw [Nat.toList_repr] at member
  have digit := Radix.isDigit_of_mem_toDigits member
  constructor
  all_goals
    rintro rfl
    exact absurd digit (by decide)

/-- No mark arises where a numeral meets the texts on its sides. -/
theorem isChain_intercalate (count : Nat) {pieces : List (List Char)}
    (unmarked : ∀ piece ∈ pieces, piece.IsChain NoMark) :
    (count.repr.toList.intercalate pieces).IsChain NoMark := by
  have some : count.repr.toList ≠ [] := by
    rw [Nat.toList_repr]
    exact Nat.toDigits_ne_nil
  have within : count.repr.toList.IsChain NoMark :=
    unmarked_iff_isChain.mp fun inside =>
      (repr_foreign (inside.subset (List.mem_cons_self : '%' ∈ countMark))).1 rfl
  induction pieces with
  | nil => simp
  | cons piece rest ih =>
    obtain ⟨first, others⟩ := List.forall_mem_cons.mp unmarked
    cases rest with
    | nil => simpa using first
    | cons next more =>
      rw [List.intercalate_cons_cons, List.append_assoc]
      refine List.isChain_append.mpr ⟨first, List.isChain_append.mpr ⟨within, ih others, ?_⟩, ?_⟩
      · intro last ends _ _ same
        exact (repr_foreign (List.mem_of_getLast? ends)).1 same.1
      · intro _ _ c begins same
        rw [List.head?_append_of_ne_nil _ some] at begins
        exact (repr_foreign (List.mem_of_head? begins)).2 same.2

/-- Behind a substitution there is no mark. -/
theorem unmarked_substituteCount (template : String) (count : Nat) :
    ¬countMark <:+: (substituteCount template count).toList := by
  rw [toList_substituteCount, unmarked_iff_isChain]
  refine isChain_intercalate count fun piece member => ?_
  exact unmarked_iff_isChain.mp ((separates_betweenMarks template.toList).unmarked piece member)

/-- A text without a mark is shown as it is. -/
theorem substituteCount_of_unmarked {text : String} (unmarked : ¬countMark <:+: text.toList)
    (count : Nat) : substituteCount text count = text := by
  have whole : Separates [text.toList] text.toList := ⟨by simp, by simpa using unmarked, by simp⟩
  rw [← String.toList_inj, toList_substituteCount, ← whole.eq_betweenMarks]
  simp

/-- What a translator shows for a count is a substitution into some text. -/
theorem TranslatorSet.exists_template (set : TranslatorSet) (context source : String)
    (count : Nat) : ∃ template, set.translatePlural context source count =
      substituteCount template count := by
  unfold translatePlural
  split
  next translator _ => exact ⟨translator.lookupPlural context source none count, rfl⟩
  next => exact ⟨source, rfl⟩

/-- Counts are put in completely and once and for all. There is one way only to take a
template apart at its marks so that none is left, and with a count in it the template
is the same texts in the same order with the numeral between them. No mark is in the
result, so putting another count in changes nothing. What a translator shows for a
count has no mark in it, and neither has what a set of translators shows, whether a
language is active or not. -/
theorem counts_replace_marks (count : Nat) :
    (∀ template : String,
      (∃ pieces, Separates pieces template.toList ∧
        (∀ others, Separates others template.toList → others = pieces) ∧
        (substituteCount template count).toList = count.repr.toList.intercalate pieces) ∧
      ¬countMark <:+: (substituteCount template count).toList ∧
      ∀ again, substituteCount (substituteCount template count) again =
        substituteCount template count) ∧
    ∀ context source,
      (∀ translator : Translator,
        ¬countMark <:+: (translator.translatePlural context source count).toList) ∧
      ∀ set : TranslatorSet,
        ¬countMark <:+: (set.translatePlural context source count).toList := by
  refine ⟨fun template => ⟨⟨betweenMarks template.toList, separates_betweenMarks _,
    fun others other => other.eq_betweenMarks, toList_substituteCount template count⟩, ?_, ?_⟩,
    fun context source => ⟨fun translator => ?_, fun set => ?_⟩⟩
  · exact unmarked_substituteCount template count
  · intro again
    exact substituteCount_of_unmarked (unmarked_substituteCount template count) again
  · exact unmarked_substituteCount (translator.lookupPlural context source none count) count
  · obtain ⟨template, same⟩ := set.exists_template context source count
    rw [same]
    exact unmarked_substituteCount template count

/-- What is left of a mark in front of another one and behind it does not close up to a mark. -/
example : substituteCount "%%nn%n%" 12 = "%12n12%" := by decide +kernel

end MessageCatalog
