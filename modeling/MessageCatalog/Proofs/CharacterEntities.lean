import Mathlib.Algebra.Group.Nat.Defs
import Mathlib.Data.List.Basic
import Mathlib.Tactic.SplitIfs
import MessageCatalog.Proofs.EscapedText
import MessageCatalog.Proofs.Utf8Text

/-!
# Characters by name and by number

A character can be written as an entity: by one of a few names, or by its number in one of
two radixes. A numeral without zeros in front has no more digits than its value needs, so
the number of a character is never too long to be read.
-/

namespace MessageCatalog

namespace Radix

/-- The digits of a number, the last one of which counts once. -/
inductive Numeral (radix : Radix) : List Char → Nat → Prop
  /-- One digit. -/
  | digit {c : Char} {value : Nat} (own : radix.digit? c = some value) : Numeral radix [c] value
  /-- One more digit behind others. -/
  | append {digits : List Char} {value last : Nat} {c : Char} (front : Numeral radix digits value)
    (own : radix.digit? c = some last) :
    Numeral radix (digits ++ [c]) (radix.base * value + last)

/-- Digits are ASCII characters. -/
theorem toNat_lt_of_digit? {radix : Radix} {c : Char} {value : Nat}
    (h : radix.digit? c = some value) : c.toNat < 128 := by
  unfold digit? at h
  split_ifs at h with decimal small large
  · simp only [Char.isDigit, Bool.and_eq_true, decide_eq_true_eq, UInt32.le_iff_toNat_le] at decimal
    exact Nat.lt_of_le_of_lt decimal.2 (by decide)
  · have most := small.2.2
    rw [Char.le_def, UInt32.le_iff_toNat_le] at most
    exact Nat.lt_of_le_of_lt most (by decide)
  · have most := large.2.2
    rw [Char.le_def, UInt32.le_iff_toNat_le] at most
    exact Nat.lt_of_le_of_lt most (by decide)

/-- What holds of the digits among the ASCII characters holds of all digits. -/
theorem of_digit? (P : Radix → Char → Nat → Prop)
    (all : ∀ (radix : Radix) (n : Fin 128), ∀ value ∈ radix.digit? (Char.ofNat n),
      P radix (Char.ofNat n) value)
    {radix : Radix} {c : Char} {value : Nat} (h : radix.digit? c = some value) :
    P radix c value := by
  have here := all radix ⟨c.toNat, toNat_lt_of_digit? h⟩ value
  rw [Char.ofNat_toNat] at here
  exact here h

/-- A digit is no sign of markup, of an entity or of a number, takes one byte, and counts
for nothing only if it is the digit zero. -/
theorem digit_plain {radix : Radix} {c : Char} {value : Nat} (h : radix.digit? c = some value) :
    Entity.isEntityName c = true ∧ c ≠ '<' ∧ c ≠ 'x' ∧ c ≠ '+' ∧ c.utf8Size = 1 ∧
      (value = 0 → c = '0') := by
  refine of_digit? (fun _ c value => Entity.isEntityName c = true ∧ c ≠ '<' ∧ c ≠ 'x' ∧ c ≠ '+' ∧
    c.utf8Size = 1 ∧ (value = 0 → c = '0')) (fun radix => ?_) h
  cases radix <;> decide +kernel

/-- Digits behind others are read behind them. -/
theorem extend?_append (radix : Radix) (start : Nat) (first second : List Char) :
    radix.extend? start (first ++ second) =
      (radix.extend? start first).bind fun value => radix.extend? value second := by
  induction first generalizing start with
  | nil => rfl
  | cons c rest ih =>
    rw [List.cons_append, extend?, extend?]
    cases radix.digit? c with
    | none => rfl
    | some d => exact ih _

namespace Numeral

variable {radix : Radix} {digits : List Char} {value : Nat}

/-- A numeral has a digit. -/
theorem ne_nil (h : Numeral radix digits value) : digits ≠ [] := by
  cases h <;> simp

/-- A numeral holds nothing but digits. -/
theorem exists_digit (h : Numeral radix digits value) :
    ∀ c ∈ digits, ∃ d, radix.digit? c = some d := by
  induction h with
  | digit own =>
    intro c member
    rw [List.mem_singleton.mp member]
    exact ⟨_, own⟩
  | append _ own ih =>
    intro c member
    rcases List.mem_append.mp member with before | last
    · exact ih c before
    · rw [List.mem_singleton.mp last]
      exact ⟨_, own⟩

/-- A numeral is read as its value. -/
theorem extend?_eq (h : Numeral radix digits value) : radix.extend? 0 digits = some value := by
  induction h with
  | digit own => simp only [extend?, own, Nat.mul_zero, Nat.zero_add]
  | append _ own ih => simp only [extend?_append, ih, Option.bind_some, extend?, own]

/-- Without zeros in front a numeral has no more digits than its value needs. -/
theorem pow_le (h : Numeral radix digits value) (zeroless : digits.head? ≠ some '0') :
    radix.base ^ (digits.length - 1) ≤ value := by
  induction h with
  | digit own =>
    refine Nat.one_le_iff_ne_zero.mpr fun zero => zeroless ?_
    rw [(digit_plain own).2.2.2.2.2 zero]
    rfl
  | @append digits value last c front own ih =>
    have positive : 0 < digits.length := List.length_pos_iff.mpr front.ne_nil
    rw [List.head?_append_of_ne_nil _ front.ne_nil] at zeroless
    calc radix.base ^ ((digits ++ [c]).length - 1)
        = radix.base * radix.base ^ (digits.length - 1) := by
          rw [← Nat.pow_succ', List.length_append, List.length_singleton]
          congr 1
          omega
      _ ≤ radix.base * value := Nat.mul_le_mul_left _ (ih zeroless)
      _ ≤ radix.base * value + last := Nat.le_add_right _ _

/-- Digits take one byte each. -/
theorem utf8Length_eq (h : Numeral radix digits value) : Utf8.length digits = digits.length := by
  have single {c : Char} {d : Nat} (own : radix.digit? c = some d) : Utf8.length [c] = 1 :=
    (Nat.zero_add _).trans (digit_plain own).2.2.2.2.1
  induction h with
  | digit own => exact single own
  | append _ own ih => rw [Utf8.length_append, ih, single own, List.length_append, List.length_singleton]

/-- A number that may not be too large is read from its numeral. -/
theorem below?_eq (h : Numeral radix digits value) {bound : Nat} (small : value < bound) :
    radix.below? bound digits = some value := by
  obtain ⟨c, rest, rfl⟩ := List.exists_cons_of_ne_nil h.ne_nil
  obtain ⟨d, own⟩ := h.exists_digit c List.mem_cons_self
  have unsigned : c ≠ '+' := (digit_plain own).2.2.2.1
  unfold below?
  split
  next same => exact absurd (List.cons.inj same).1 unsigned
  next =>
    have read : radix.natural? (c :: rest) = some value := h.extend?_eq
    simp only [read, Option.filter_some, if_pos (decide_eq_true small)]

end Numeral

end Radix

namespace Entity

/-- The value of digits, if they have one. -/
theorem digitsValue_of_extend? {radix : Radix} {start value : Nat} {digits : List Char}
    (h : radix.extend? start digits = some value) : digitsValue radix start digits = .ok value := by
  induction digits generalizing start with
  | nil => exact congrArg Except.ok (Option.some.inj h)
  | cons c rest ih =>
    rw [Radix.extend?] at h
    rw [digitsValue]
    cases own : radix.digit? c with
    | none =>
      rw [own] at h
      exact absurd h (by simp)
    | some d =>
      rw [own] at h
      exact ih h

/-- What stands in front of the digits in the number of a character. -/
def numberMark : Radix → List Char
  | .decimal => []
  | .hexadecimal => ['x']

/-- The number of a character is read from its numeral. -/
theorem number_numeral {radix : Radix} {digits : List Char} {c : Char}
    (numeral : radix.Numeral digits c.toNat) (zeroless : digits.head? ≠ some '0') :
    number (numberMark radix ++ digits) = .ok c.toNat := by
  have own := digitsValue_of_extend? numeral.extend?_eq
  have short : ¬mostDigits radix < Utf8.length digits := by
    have least := numeral.pow_le zeroless
    have most : c.toNat < 0x110000 := by
      have valid : c.toNat.isValidChar := c.valid
      unfold Nat.isValidChar at valid
      omega
    rw [numeral.utf8Length_eq]
    intro long
    have large : radix.base ^ mostDigits radix ≤ radix.base ^ (digits.length - 1) :=
      Nat.pow_le_pow_right (by cases radix <;> decide) (by omega)
    have enough : 0x110000 ≤ radix.base ^ mostDigits radix := by
      cases radix <;> decide
    omega
  have plain : number (numberMark radix ++ digits) =
      if mostDigits radix < Utf8.length digits then .error (.tooLong radix)
      else digitsValue radix 0 digits := by
    cases radix with
    | hexadecimal => rfl
    | decimal =>
      obtain ⟨first, rest, rfl⟩ := List.exists_cons_of_ne_nil numeral.ne_nil
      obtain ⟨d, digit⟩ := numeral.exists_digit first List.mem_cons_self
      have unmarked : first ≠ 'x' := (Radix.digit_plain digit).2.2.1
      unfold number numberMark
      split
      next found =>
        split at found
        next same => exact absurd (List.cons.inj same).1 unmarked
        next =>
          injection found with radix digits
          rw [← radix, ← digits]
          rfl
  rw [plain, if_neg short, own]

/-- The number of a character stands for it, unless it is zero. -/
theorem resolves_number {radix : Radix} {digits : List Char} {c : Char}
    (numeral : radix.Numeral digits c.toNat) (zeroless : digits.head? ≠ some '0')
    (some : c ≠ '\x00') :
    Resolves ('&' :: '#' :: (numberMark radix ++ digits ++ [';'])) [c] := by
  have mark (d : Char) (inside : d ∈ numberMark radix) : isEntityName d = true := by
    cases radix with
    | decimal => exact absurd inside List.not_mem_nil
    | hexadecimal =>
      rw [List.mem_singleton.mp inside]
      rfl
  have plain : ('#' :: (numberMark radix ++ digits)).all isEntityName = true := by
    rw [List.all_cons, List.all_append, List.all_eq_true.mpr mark, List.all_eq_true.mpr]
    · rfl
    · intro d inside
      obtain ⟨_, own⟩ := numeral.exists_digit d inside
      exact (Radix.digit_plain own).1
  refine Resolves.entity ('#' :: (numberMark radix ++ digits)) plain fun start stop => ?_
  have positive : c.toNat ≠ 0 := fun zero => some (Char.toNat_inj.mp zero)
  have valid : c.toNat.isValidChar := c.valid
  simp only [resolve, number_numeral numeral zeroless, if_neg positive, if_pos valid,
    Char.ofNat_toNat]

/-- The named entities and what they stand for. -/
def namedEntities : List (List Char × Char) :=
  [("lt".toList, '<'), ("gt".toList, '>'), ("amp".toList, '&'), ("apos".toList, '\x27'),
    ("quot".toList, '\x22')]

/-- A named entity stands for its character. -/
theorem resolves_named {name : List Char} {c : Char} (known : (name, c) ∈ namedEntities) :
    Resolves ('&' :: (name ++ [';'])) [c] := by
  simp only [namedEntities, List.mem_cons, List.not_mem_nil, or_false, Prod.mk.injEq] at known
  rcases known with ⟨rfl, rfl⟩ | ⟨rfl, rfl⟩ | ⟨rfl, rfl⟩ | ⟨rfl, rfl⟩ | ⟨rfl, rfl⟩
  all_goals exact Resolves.entity _ rfl fun _ _ => rfl

/-- A named entity has no bracket. -/
theorem bracketless_named {name : List Char} {c : Char} (known : (name, c) ∈ namedEntities) :
    ∀ d ∈ '&' :: (name ++ [';']), d ≠ '<' := by
  have all : namedEntities.all (fun entry => ('&' :: (entry.1 ++ [';'])).all (· != '<')) = true := by
    decide
  intro d member
  exact bne_iff_ne.mp (List.all_eq_true.mp (List.all_eq_true.mp all (name, c) known) d member)

/-- The number of a character has no bracket. -/
theorem bracketless_number {radix : Radix} {digits : List Char} {value : Nat}
    (numeral : radix.Numeral digits value) :
    ∀ d ∈ '&' :: '#' :: (numberMark radix ++ digits ++ [';']), d ≠ '<' := by
  have mark : '<' ∉ numberMark radix := by cases radix <;> decide
  rintro d member rfl
  simp only [List.mem_cons, List.mem_append, List.not_mem_nil, or_false, mark, false_or] at member
  rcases member with wrong | wrong | inside | wrong
  · exact absurd wrong (by decide)
  · exact absurd wrong (by decide)
  · obtain ⟨_, own⟩ := numeral.exists_digit _ inside
    exact (Radix.digit_plain own).2.1 rfl
  · exact absurd wrong (by decide)

/-- Characters that open no entity are themselves. -/
theorem resolves_plain {run : List Char} (plain : ∀ c ∈ run, c ≠ '&') : Resolves run run := by
  induction run with
  | nil => exact .nil
  | cons c rest ih =>
    exact (Resolves.self (plain c List.mem_cons_self)).append
      (ih fun d member => plain d (List.mem_cons_of_mem c member))

end Entity

end MessageCatalog
