import MessageCatalog.JsonNumber
import MessageCatalog.Proofs.LineNumberText

/-!
# Numbers as JSON text

A number is told from its text one character after the other. The text of an integer
begins with no needless zero, so it is read to its end and stands for the integer. The
text of a double has digits behind a point, a power of ten or both, so it is no integer
and keeps its text. That holds of every double, whatever digits are found for it.
-/

namespace MessageCatalog

namespace NumberPart

/-! ## Parts of a number -/

/-- The part of a number that a text ends in, if a number can begin with the text. -/
def ofText? : List Char → Option NumberPart
  | [] => none
  | c :: rest => (first? c).bind fun part => rest.foldlM next? part

variable {part behind : NumberPart}

/-- What stands behind a text leads on from the part that the text ends in. -/
theorem ofText?_append {front : List Char} (h : ofText? front = some part) (back : List Char) :
    ofText? (front ++ back) = back.foldlM next? part := by
  cases front with
  | nil => exact absurd h (by simp [ofText?])
  | cons c rest =>
    obtain ⟨first, starts, reached⟩ := Option.bind_eq_some_iff.mp h
    rw [List.cons_append, ofText?, starts, Option.bind_some, List.foldlM_append, reached]
    rfl

/-- A character that leads to a part is followed by what leads on from there. -/
theorem foldlM_next?_cons {c : Char} (h : part.next? c = some behind) (rest : List Char) :
    (c :: rest).foldlM next? part = rest.foldlM next? behind := by
  rw [List.foldlM_cons, h]
  rfl

/-- Digits lead no further than the first of them if the others stay where it leads to. -/
theorem foldlM_next?_run (starts : ∀ c : Char, c.isDigit = true → part.next? c = some behind)
    (stays : ∀ c : Char, c.isDigit = true → behind.next? c = some behind)
    {digits : List Char} (run : Radix.IsRun digits) :
    digits.foldlM next? part = some behind := by
  have still (digits : List Char) (all : ∀ c ∈ digits, c.isDigit = true) :
      digits.foldlM next? behind = some behind := by
    induction digits with
    | nil => rfl
    | cons c rest ih =>
      rw [foldlM_next?_cons (stays c (all c List.mem_cons_self))]
      exact ih fun d member => all d (List.mem_cons_of_mem c member)
  obtain ⟨filled, all⟩ := run
  obtain ⟨c, rest, rfl⟩ := List.exists_cons_of_ne_nil filled
  rw [foldlM_next?_cons (starts c (all c List.mem_cons_self))]
  exact still rest fun d member => all d (List.mem_cons_of_mem c member)

/-- A digit is no sign. -/
theorem ne_minus_of_isDigit {c : Char} (digit : c.isDigit = true) : c ≠ '-' := by
  rintro rfl
  exact absurd digit (by decide)

/-! ## Integers -/

/-- The part that the digits of a natural number end in: zero stands alone. -/
def ofWhole (n : Nat) : NumberPart := if n = 0 then zero else digits

/-- A number may end in the digits of a natural number, and then it is an integer. -/
theorem ofWhole_integral (n : Nat) :
    (ofWhole n).isComplete = true ∧ (ofWhole n).isIntegral = true := by
  unfold ofWhole
  split <;> exact ⟨rfl, rfl⟩

/-- A number begins with the digit of a natural number below ten. -/
theorem first?_digitChar {n : Nat} (h : n < 10) :
    first? (Nat.digitChar n) = some (ofWhole n) := by
  have all : ∀ n : Fin 10, first? (Nat.digitChar n) = some (ofWhole n.val) := by decide
  exact all ⟨n, h⟩

/-- A number can be the digits of a natural number: only zero begins with a zero. -/
theorem ofText?_toDigits (n : Nat) : ofText? (Nat.toDigits 10 n) = some (ofWhole n) := by
  induction n using Nat.strongRecOn with
  | _ n ih =>
    by_cases small : n < 10
    · rw [Nat.toDigits_of_lt_base small, ofText?, first?_digitChar small]
      rfl
    · have last : (n % 10).digitChar.isDigit = true := by
        rw [Nat.isDigit_digitChar, decide_eq_true_eq]
        omega
      have front := ih (n / 10) (by omega)
      rw [ofWhole, if_neg (by omega)] at front
      rw [Nat.toDigits_of_base_le (by decide) (by omega), ofText?_append front, ofWhole,
        if_neg (by omega)]
      exact foldlM_next?_cons (by rw [next?, if_pos last]) []

/-- A minus sign in front of digits changes nothing of the part that they end in. -/
theorem ofText?_negative {digits : List Char} (run : Radix.IsRun digits) :
    ofText? ('-' :: digits) = ofText? digits := by
  obtain ⟨filled, all⟩ := run
  obtain ⟨c, rest, rfl⟩ := List.exists_cons_of_ne_nil filled
  have same : sign.next? c = first? c := by
    rw [next?, first?, if_neg (ne_minus_of_isDigit (all c List.mem_cons_self))]
  change (c :: rest).foldlM next? sign = (first? c).bind _
  rw [List.foldlM_cons, same]
  rfl

/-- The digits of a natural number are valued as it. -/
theorem value_of_natural (integral : part.isIntegral = true) (n : Nat) :
    part.value n.repr = .integer n := by
  have run := Radix.isRun_toDigits n
  have number : Radix.decimal.natural? (Nat.toDigits 10 n) = some n :=
    Radix.natural?_eq_some_iff.mpr ⟨run, Radix.runValue_toDigits n⟩
  rw [value, if_pos integral, Nat.toList_repr]
  split
  next rest signed =>
    rw [signed] at run
    exact absurd (run.2 '-' List.mem_cons_self) (by decide)
  next =>
    rw [number]
    rfl

/-- Behind a minus sign the digits of a positive number are valued as its negative. -/
theorem value_of_negative (integral : part.isIntegral = true) (n : Nat) :
    part.value ("-" ++ (n + 1).repr) = .integer (Int.negSucc n) := by
  have number : Radix.decimal.natural? (Nat.toDigits 10 (n + 1)) = some (n + 1) :=
    Radix.natural?_eq_some_iff.mpr ⟨Radix.isRun_toDigits _, Radix.runValue_toDigits _⟩
  have shape : ("-" ++ (n + 1).repr).toList = '-' :: Nat.toDigits 10 (n + 1) := by simp
  rw [value, if_pos integral, shape]
  simp only [number]
  rfl

/-- The text of an integer is a number that is valued as the integer. -/
theorem exists_part_of_integer (value : Int) : ∃ part : NumberPart,
    ofText? (JsonLayout.integerText value).toList = some part ∧ part.isComplete = true ∧
      part.value (JsonLayout.integerText value) = .integer value := by
  cases value with
  | ofNat n =>
    have shape : JsonLayout.integerText (Int.ofNat n) = n.repr := by
      simp [JsonLayout.integerText]
    obtain ⟨complete, integral⟩ := ofWhole_integral n
    rw [shape, Nat.toList_repr]
    exact ⟨_, ofText?_toDigits n, complete, value_of_natural integral n⟩
  | negSucc n =>
    have shape : JsonLayout.integerText (Int.negSucc n) = "-" ++ (n + 1).repr := by
      simp [JsonLayout.integerText, Int.negSucc_lt_zero]
    obtain ⟨complete, integral⟩ := ofWhole_integral (n + 1)
    refine ⟨.ofWhole (n + 1), ?_, complete, shape ▸ value_of_negative integral n⟩
    rw [shape, String.toList_append, Nat.toList_repr, ← ofText?_toDigits]
    exact ofText?_negative (Radix.isRun_toDigits _)

/-! ## Decimals -/

/-- A text is a decimal if it is a number with a fraction or an exponent. -/
def IsDecimal (text : List Char) : Prop :=
  ∃ part, ofText? text = some part ∧ part.isComplete = true ∧ part.isIntegral = false

/-- A point and digits behind it lead to a fraction. -/
theorem foldlM_next?_places (pointed : part.next? '.' = some point) {places : List Char}
    (run : Radix.IsRun places) : ('.' :: places).foldlM next? part = some fraction := by
  rw [foldlM_next?_cons pointed]
  exact foldlM_next?_run (fun _ digit => by rw [next?, if_pos digit])
    (fun _ digit => by rw [next?, if_pos digit]) run

/-- A power of ten with its sign leads to an exponent. -/
theorem foldlM_next?_power (marked : part.next? 'e' = some exponentMark) (isNegative : Prop)
    [Decidable isNegative] {power : List Char} (run : Radix.IsRun power) :
    ('e' :: (if isNegative then '-' else '+') :: power).foldlM next? part = some exponent := by
  have signed : exponentMark.next? (if isNegative then '-' else '+') = some exponentSign := by
    split <;> rfl
  rw [foldlM_next?_cons marked, foldlM_next?_cons signed]
  exact foldlM_next?_run (fun _ digit => by rw [next?, if_pos digit])
    (fun _ digit => by rw [next?, if_pos digit]) run

/-- A number begins with any digit, and may go on with a point or an exponent. -/
theorem first?_of_isDigit {c : Char} (digit : c.isDigit = true) : ∃ part, first? c = some part ∧
    part.next? '.' = some point ∧ part.next? 'e' = some exponentMark := by
  by_cases isZero : c = '0'
  · exact ⟨zero, by simp [first?, isZero], rfl, rfl⟩
  · exact ⟨digits, by simp [first?, ne_minus_of_isDigit digit, isZero, digit], rfl, rfl⟩

/-- A natural number with digits behind a point is a decimal. -/
theorem isDecimal_places (whole : Nat) {places : List Char} (run : Radix.IsRun places) :
    IsDecimal (Nat.toDigits 10 whole ++ '.' :: places) := by
  have pointed : (ofWhole whole).next? '.' = some point := by
    unfold ofWhole
    split <;> rfl
  refine ⟨fraction, ?_, rfl, rfl⟩
  rw [ofText?_append (ofText?_toDigits whole)]
  exact foldlM_next?_places pointed run

end NumberPart

namespace BinaryFloat

open NumberPart

/-- A double without a power of ten is a decimal: there is at least one place. -/
theorem isDecimal_positionalText (units : Nat) (places : Int) :
    IsDecimal (positionalText units places).toList := by
  unfold positionalText
  split
  · have zero : Radix.IsRun ['0'] := ⟨List.cons_ne_nil '0' [], by simp⟩
    rw [String.toList_append, Nat.toList_repr]
    exact isDecimal_places _ zero
  · have some : places.toNat ≠ 0 := by omega
    rw [pointText, if_neg some]
    simp only [String.toList_append, Nat.toList_repr, String.toList_ofList]
    refine isDecimal_places _ ⟨?_, fun c member => ?_⟩
    · intro none
      have short := (Nat.length_toDigits_le_iff (by decide) Nat.one_pos).mp
        (List.drop_eq_nil_iff.mp none)
      have long : 10 ≤ Nat.pow 10 places.toNat := Nat.le_self_pow some 10
      omega
    · exact Radix.isDigit_of_mem_toDigits (List.mem_of_mem_drop member)

/-- A double with a power of ten is a decimal, with places or without. -/
theorem isDecimal_exponentText {digits : List Char} (run : Radix.IsRun digits) (exponent : Int) :
    IsDecimal (exponentText digits exponent).toList := by
  obtain ⟨filled, all⟩ := run
  obtain ⟨c, behind, rfl⟩ := List.exists_cons_of_ne_nil filled
  obtain ⟨part, starts, pointed, marked⟩ := first?_of_isDigit (all c List.mem_cons_self)
  let power := 'e' :: (if exponent < 0 then '-' else '+') :: Nat.toDigits 10 exponent.natAbs
  have shape : (exponentText (c :: behind) exponent).toList =
      c :: ((if behind.isEmpty then [] else '.' :: behind) ++ power) := by
    unfold exponentText
    dsimp only [List.drop_succ_cons, List.drop_zero, List.take_succ_cons, List.take_zero]
    split <;> split <;> simp_all [power]
  refine ⟨.exponent, ?_, rfl, rfl⟩
  rw [shape, ofText?, starts, Option.bind_some]
  split
  · exact foldlM_next?_power marked _ (Radix.isRun_toDigits _)
  next some =>
    have places : Radix.IsRun behind :=
      ⟨by simpa using some, fun d member => all d (List.mem_cons_of_mem c member)⟩
    rw [List.foldlM_append, foldlM_next?_places pointed places]
    change power.foldlM next? fraction = _
    exact foldlM_next?_power rfl _ (Radix.isRun_toDigits _)

/-- The shortest text of a double is a decimal. -/
theorem isDecimal_shortest (value : BinaryFloat) : IsDecimal value.shortest.toList := by
  unfold shortest
  dsimp only
  split
  · exact isDecimal_positionalText _ _
  · rw [Nat.toList_repr]
    exact isDecimal_exponentText (Radix.isRun_toDigits _) _

end BinaryFloat

end MessageCatalog
