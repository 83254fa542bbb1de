import Mathlib.Algebra.Group.Int.Defs
import Mathlib.Algebra.Group.Nat.Defs
import MessageCatalog.Numeral

/-!
# Line references as text

A line reference is told from its text: the kind by the sign, the line or the step by the
digits. Digits alone spell a line, digits behind one sign spell a step, and there may be any
number of zeros in front of them. No other texts are read, and no values out of the range of
their kind. The text of a line reference is one that spells it, so it is read back over the
whole range of either kind.
-/

namespace MessageCatalog

namespace Radix

/-! ## Runs of digits -/

/-- The value of a decimal digit. -/
theorem digit?_of_isDigit {c : Char} (digit : c.isDigit = true) :
    decimal.digit? c = some (c.toNat - 48) := by
  rw [digit?, if_pos digit]

/-- No other character is a decimal digit. -/
theorem digit?_of_not_isDigit {c : Char} (other : ¬c.isDigit = true) : decimal.digit? c = none := by
  simp [digit?, other]

/-- Decimal digits always have a value. -/
theorem extend?_decimal {digits : List Char} (all : ∀ c ∈ digits, c.isDigit = true)
    (value : Nat) : decimal.extend? value digits = some (Nat.ofDigitChars 10 digits value) := by
  induction digits generalizing value with
  | nil => rfl
  | cons c rest ih =>
    rw [extend?, digit?_of_isDigit (all c List.mem_cons_self)]
    dsimp only
    rw [ih (fun d member => all d (List.mem_cons_of_mem _ member)), Nat.ofDigitChars_cons]
    rfl

/-- What has a decimal value consists of decimal digits. -/
theorem isDigit_of_extend? {digits : List Char} {start value : Nat}
    (read : decimal.extend? start digits = some value) : ∀ c ∈ digits, c.isDigit = true := by
  induction digits generalizing start with
  | nil => simp
  | cons c rest ih =>
    rw [extend?] at read
    by_cases digit : c.isDigit = true
    · rw [digit?_of_isDigit digit] at read
      exact List.forall_mem_cons.mpr ⟨digit, ih read⟩
    · rw [digit?_of_not_isDigit digit] at read
      exact absurd read (by simp)

/-- A run of decimal digits that is not empty. -/
def IsRun (digits : List Char) : Prop := digits ≠ [] ∧ ∀ c ∈ digits, c.isDigit = true

/-- The number that a run of decimal digits stands for. -/
def runValue (digits : List Char) : Nat := Nat.ofDigitChars 10 digits 0

/-- A number is read from the runs of digits that stand for it, and from nothing else. -/
theorem natural?_eq_some_iff {digits : List Char} {value : Nat} :
    decimal.natural? digits = some value ↔ IsRun digits ∧ runValue digits = value := by
  cases digits with
  | nil => exact iff_of_false nofun fun run => run.1.1 rfl
  | cons c rest =>
    constructor
    · intro read
      have all := isDigit_of_extend? read
      exact ⟨⟨List.cons_ne_nil c rest, all⟩,
        Option.some.inj ((extend?_decimal all 0).symm.trans read)⟩
    · rintro ⟨run, rfl⟩
      exact extend?_decimal run.2 0

/-- The digits of a number are decimal digits. -/
theorem isDigit_of_mem_toDigits {n : Nat} {c : Char} (h : c ∈ Nat.toDigits 10 n) :
    c.isDigit = true :=
  Nat.isDigit_of_mem_toDigits (by decide) (by decide) h

/-- The digits of a number are a run. -/
theorem isRun_toDigits (n : Nat) : IsRun (Nat.toDigits 10 n) :=
  ⟨Nat.toDigits_ne_nil, fun _ => isDigit_of_mem_toDigits⟩

/-- The digits of a number stand for the number. -/
theorem runValue_toDigits (n : Nat) : runValue (Nat.toDigits 10 n) = n :=
  Nat.ofDigitChars_ten_toDigits

end Radix

namespace LineNumber

open Radix

/-! ## The grammar -/

/-- Whether a character is a sign. -/
def IsSign (sign : Char) : Prop := sign = '+' ∨ sign = '-'

/-- What a sign makes of a value. -/
def signed (sign : Char) (value : Nat) : Int := if sign = '-' then -value else value

/-- A text spells a line if it is a run of digits that stands for it. -/
def SpellsLine (text : List Char) (line : Nat) : Prop := IsRun text ∧ runValue text = line

/-- A text spells a step if it is one sign and a run of digits that together stand for it. -/
def SpellsStep (text : List Char) (step : Int) : Prop :=
  ∃ sign digits, text = sign :: digits ∧ IsSign sign ∧ IsRun digits ∧
    signed sign (runValue digits) = step

/-- No run of digits begins with a sign. -/
theorem not_isRun_of_isSign {sign : Char} (isSign : IsSign sign) (digits : List Char) :
    ¬IsRun (sign :: digits) := by
  intro run
  have digit := run.2 sign List.mem_cons_self
  rcases isSign with rfl | rfl <;> exact absurd digit (by decide)

/-- A text begins with a sign, or it does not. -/
theorem sign_or_not (text : List Char) :
    (∃ sign digits, text = sign :: digits ∧ IsSign sign) ∨
      ∀ sign digits, text = sign :: digits → ¬IsSign sign := by
  by_cases signed : ∃ sign digits, text = sign :: digits ∧ IsSign sign
  · exact .inl signed
  · exact .inr fun sign digits shape isSign => signed ⟨sign, digits, shape, isSign⟩

/-! ## Reading -/

/-- What is made of a run of digits is there if the value of the run is in range. -/
theorem map_filter_natural? {inRange : Nat → Bool} {make : Nat → LineNumber} {digits : List Char}
    {line : LineNumber} :
    ((decimal.natural? digits).filter inRange).map make = some line ↔
      IsRun digits ∧ inRange (runValue digits) = true ∧ make (runValue digits) = line := by
  simp only [Option.map_eq_some_iff, Option.filter_eq_some_iff, natural?_eq_some_iff]
  constructor
  · rintro ⟨_, ⟨⟨run, rfl⟩, small⟩, made⟩
    exact ⟨run, small, made⟩
  · rintro ⟨run, small, made⟩
    exact ⟨_, ⟨⟨run, rfl⟩, small⟩, made⟩

/-- A number in the range of steps makes the step that it is, and no other number makes one. -/
theorem relative_ofInt_iff {number : Int} {inRange : Prop}
    (range : inRange ↔ -2 ^ 31 ≤ number ∧ number < 2 ^ 31) {line : LineNumber} :
    inRange ∧ relative (Int32.ofInt number) = line ↔
      ∃ delta : Int32, line = relative delta ∧ number = delta.toInt := by
  constructor
  · rintro ⟨inside, rfl⟩
    obtain ⟨least, most⟩ := range.mp inside
    exact ⟨_, rfl, (Int32.toInt_ofInt_of_le least most).symm⟩
  · rintro ⟨delta, rfl, rfl⟩
    exact ⟨range.mpr ⟨delta.le_toInt, delta.toInt_lt⟩, by rw [Int32.ofInt_toInt]⟩

/-- Behind a sign the digits of a step are read. The greatest value is one less behind a
plus sign than behind a minus sign. -/
theorem parse?_of_sign {text : String} {sign : Char} {digits : List Char}
    (shape : text.toList = sign :: digits) (isSign : IsSign sign) {line : LineNumber} :
    parse? text = some line ↔ IsRun digits ∧
      ∃ delta : Int32, line = relative delta ∧ signed sign (runValue digits) = delta.toInt := by
  rcases isSign with rfl | rfl
  · simp only [parse?, shape]
    rw [map_filter_natural?, relative_ofInt_iff (by rw [decide_eq_true_eq]; omega)]
    rfl
  · simp only [parse?, shape]
    rw [map_filter_natural?, relative_ofInt_iff (by rw [decide_eq_true_eq]; omega)]
    rfl

/-- Without a sign the digits of a line are read. -/
theorem parse?_of_no_sign {text : String}
    (unsigned : ∀ sign digits, text.toList = sign :: digits → ¬IsSign sign) {line : LineNumber} :
    parse? text = some line ↔ IsRun text.toList ∧
      ∃ number : UInt32, line = absolute number ∧ runValue text.toList = number.toNat := by
  unfold parse?
  split
  next digits shape => exact absurd (.inl rfl) (unsigned _ digits shape)
  next digits shape => exact absurd (.inr rfl) (unsigned _ digits shape)
  next =>
    rw [map_filter_natural?, decide_eq_true_eq]
    refine and_congr_right fun _ => ⟨?_, ?_⟩
    · rintro ⟨small, rfl⟩
      exact ⟨_, rfl, (UInt32.toNat_ofNat_of_lt small).symm⟩
    · rintro ⟨number, rfl, same⟩
      rw [same, UInt32.ofNat_toNat]
      exact ⟨number.toNat_lt_size, rfl⟩

/-- A line is read from the texts that spell it. -/
theorem parse?_eq_absolute_iff {text : String} {line : UInt32} :
    parse? text = some (absolute line) ↔ SpellsLine text.toList line.toNat := by
  rcases sign_or_not text.toList with ⟨sign, digits, shape, isSign⟩ | unsigned
  · rw [parse?_of_sign shape isSign, SpellsLine, shape]
    refine iff_of_false ?_ fun spelled => not_isRun_of_isSign isSign digits spelled.1
    rintro ⟨_, delta, wrong, _⟩
    exact absurd wrong (by simp)
  · rw [parse?_of_no_sign unsigned, SpellsLine]
    simp

/-- A step is read from the texts that spell it. -/
theorem parse?_eq_relative_iff {text : String} {delta : Int32} :
    parse? text = some (relative delta) ↔ SpellsStep text.toList delta.toInt := by
  rcases sign_or_not text.toList with ⟨sign, digits, shape, isSign⟩ | unsigned
  · rw [parse?_of_sign shape isSign, SpellsStep, shape]
    constructor
    · rintro ⟨run, _, same, spelled⟩
      rw [relative.inj same]
      exact ⟨sign, digits, rfl, isSign, run, spelled⟩
    · rintro ⟨_, _, same, _, run, spelled⟩
      obtain ⟨rfl, rfl⟩ := List.cons.inj same
      exact ⟨run, delta, rfl, spelled⟩
  · rw [parse?_of_no_sign unsigned]
    refine iff_of_false ?_ ?_
    · rintro ⟨_, number, wrong, _⟩
      exact absurd wrong (by simp)
    · rintro ⟨sign, digits, shape, isSign, _⟩
      exact unsigned sign digits shape isSign

/-- Lines are read up to the greatest number of their type. -/
theorem exists_absolute_iff {text : String} {number : Nat} :
    (∃ line : UInt32, parse? text = some (absolute line) ∧ line.toNat = number) ↔
      SpellsLine text.toList number ∧ number ≤ 2 ^ 32 - 1 := by
  constructor
  · rintro ⟨line, read, rfl⟩
    exact ⟨parse?_eq_absolute_iff.mp read, Nat.le_sub_one_of_lt line.toNat_lt⟩
  · rintro ⟨spelled, most⟩
    have same : (UInt32.ofNat number).toNat = number :=
      UInt32.toNat_ofNat_of_lt (Nat.lt_of_le_sub_one (by decide) most)
    exact ⟨_, parse?_eq_absolute_iff.mpr (same.symm ▸ spelled), same⟩

/-- Steps are read from the least to the greatest number of their type. -/
theorem exists_relative_iff {text : String} {number : Int} :
    (∃ delta : Int32, parse? text = some (relative delta) ∧ delta.toInt = number) ↔
      SpellsStep text.toList number ∧ -2 ^ 31 ≤ number ∧ number ≤ 2 ^ 31 - 1 := by
  constructor
  · rintro ⟨delta, read, rfl⟩
    exact ⟨parse?_eq_relative_iff.mp read, delta.le_toInt, Int.le_sub_one_of_lt delta.toInt_lt⟩
  · rintro ⟨spelled, least, most⟩
    have same : (Int32.ofInt number).toInt = number :=
      Int32.toInt_ofInt_of_le least (Int.lt_of_le_sub_one most)
    exact ⟨_, parse?_eq_relative_iff.mpr (same.symm ▸ spelled), same⟩

/-- A text is refused if it spells no number in the range of its kind. -/
theorem parse?_eq_none_iff {text : String} : parse? text = none ↔
    (∀ number, SpellsLine text.toList number → 2 ^ 32 - 1 < number) ∧
      ∀ number, SpellsStep text.toList number → number < -2 ^ 31 ∨ 2 ^ 31 - 1 < number := by
  constructor
  · intro refused
    refine ⟨fun number spelled => ?_, fun number spelled => ?_⟩
    · refine Nat.lt_of_not_le fun small => ?_
      obtain ⟨line, read, _⟩ := exists_absolute_iff.mpr ⟨spelled, small⟩
      exact absurd (refused.symm.trans read) (by simp)
    · by_cases inside : -2 ^ 31 ≤ number ∧ number ≤ 2 ^ 31 - 1
      · obtain ⟨delta, read, _⟩ := exists_relative_iff.mpr ⟨spelled, inside⟩
        exact absurd (refused.symm.trans read) (by simp)
      · omega
  · rintro ⟨noLine, noStep⟩
    refine Option.eq_none_iff_forall_ne_some.mpr fun line read => ?_
    cases line with
    | absolute line =>
      obtain ⟨spelled, small⟩ := exists_absolute_iff.mp ⟨line, read, rfl⟩
      exact absurd (noLine _ spelled) (Nat.not_lt.mpr small)
    | relative delta =>
      obtain ⟨spelled, least, most⟩ := exists_relative_iff.mp ⟨delta, read, rfl⟩
      rcases noStep _ spelled with below | above
      · exact absurd below (Int.not_lt.mpr least)
      · exact absurd above (Int.not_lt.mpr most)

/-! ## Writing -/

/-- The text of a line spells it. -/
theorem spellsLine_text (line : UInt32) : SpellsLine (text (absolute line)).toList line.toNat := by
  rw [text, Nat.toList_repr]
  exact ⟨isRun_toDigits _, runValue_toDigits _⟩

/-- The text of a step spells it, with a sign also for zero. -/
theorem spellsStep_text (delta : Int32) :
    SpellsStep (text (relative delta)).toList delta.toInt := by
  rw [text, String.toList_append, Nat.toList_repr]
  by_cases negative : delta.toInt < 0
  · rw [if_pos negative]
    refine ⟨'-', Nat.toDigits 10 delta.toInt.natAbs, rfl, .inr rfl, isRun_toDigits _, ?_⟩
    rw [runValue_toDigits, signed, if_pos rfl]
    omega
  · rw [if_neg negative]
    refine ⟨'+', Nat.toDigits 10 delta.toInt.natAbs, rfl, .inl rfl, isRun_toDigits _, ?_⟩
    rw [runValue_toDigits, signed, if_neg (by decide)]
    omega

/-- A line reference is written with digits behind at most one sign. -/
theorem isDigit_of_mem_text {line : LineNumber} {c : Char} (member : c ∈ line.text.toList) :
    c = '+' ∨ c = '-' ∨ c.isDigit = true := by
  cases line with
  | absolute line => exact .inr (.inr ((spellsLine_text line).1.2 c member))
  | relative delta =>
    obtain ⟨sign, digits, shape, isSign, run, _⟩ := spellsStep_text delta
    rw [shape] at member
    rcases List.mem_cons.mp member with rfl | digit
    · exact isSign.imp_right .inl
    · exact .inr (.inr (run.2 c digit))

/-- A line reference is read back from its text. -/
theorem parse?_text (line : LineNumber) : parse? line.text = some line := by
  cases line with
  | absolute line => exact parse?_eq_absolute_iff.mpr (spellsLine_text line)
  | relative delta => exact parse?_eq_relative_iff.mpr (spellsStep_text delta)

/-- Line references are read by their grammar. A line is read from a run of digits that stands
for it, if it is in the range of lines; a step is read from one sign and a run of digits that
stand for it, if it is in the range of steps; everything else is refused. And every line
reference is read back from its text, with its kind. -/
theorem read_by_grammar :
    (∀ (text : String) (number : Nat),
      (∃ line : UInt32, parse? text = some (absolute line) ∧ line.toNat = number) ↔
        SpellsLine text.toList number ∧ number ≤ 2 ^ 32 - 1) ∧
    (∀ (text : String) (number : Int),
      (∃ delta : Int32, parse? text = some (relative delta) ∧ delta.toInt = number) ↔
        SpellsStep text.toList number ∧ -2 ^ 31 ≤ number ∧ number ≤ 2 ^ 31 - 1) ∧
    (∀ text : String, parse? text = none ↔
      (∀ number, SpellsLine text.toList number → 2 ^ 32 - 1 < number) ∧
        ∀ number, SpellsStep text.toList number → number < -2 ^ 31 ∨ 2 ^ 31 - 1 < number) ∧
    ∀ line : LineNumber, parse? line.text = some line :=
  ⟨fun _ _ => exists_absolute_iff, fun _ _ => exists_relative_iff, fun _ => parse?_eq_none_iff,
    parse?_text⟩

/-- Zero and the ends of both ranges are written in the form of their kind. -/
example : [absolute 0, absolute 4294967295, relative 0, relative 2147483647,
    relative (-2147483648)].map text = ["0", "4294967295", "+0", "+2147483647", "-2147483648"] := by
  decide +kernel

end LineNumber

end MessageCatalog
