import MessageCatalog.BinaryFloat
import MessageCatalog.Json
import MessageCatalog.JsonCursor
import MessageCatalog.Numeral

/-!
# Numbers in JSON text

A number is read one character at a time and ends before the first that cannot
belong to it. Integers are exact. Any other number may be valued as a double:
as many leading digits as sixty-four bits hold, times or by a power of ten,
each step rounded.
-/

namespace MessageCatalog

/-- What was last read of a number. -/
inductive NumberPart where
  | sign
  | zero
  | digits
  | point
  | fraction
  | exponentMark
  | exponentSign
  | exponent
  deriving DecidableEq

namespace NumberPart

/-- Whether a number may end here. -/
def isComplete : NumberPart → Bool
  | zero | digits | fraction | exponent => true
  | sign | point | exponentMark | exponentSign => false

/-- Whether the number is an integer so far. -/
def isIntegral : NumberPart → Bool
  | sign | zero | digits => true
  | _ => false

/-- The part that the first character of a number is. -/
def first? (c : Char) : Option NumberPart :=
  if c = '-' then some sign
  else if c = '0' then some zero
  else if c.isDigit then some digits
  else none

/-- The part after one more character of a number, if it can be one. -/
def next? (part : NumberPart) (c : Char) : Option NumberPart :=
  match part with
  | sign => if c = '0' then some zero else if c.isDigit then some digits else none
  | zero =>
    if c = '.' then some point else if c = 'e' ∨ c = 'E' then some exponentMark else none
  | digits =>
    if c.isDigit then some digits
    else if c = '.' then some point else if c = 'e' ∨ c = 'E' then some exponentMark else none
  | point => if c.isDigit then some fraction else none
  | fraction =>
    if c.isDigit then some fraction else if c = 'e' ∨ c = 'E' then some exponentMark else none
  | exponentMark =>
    if c.isDigit then some exponent else if c = '+' ∨ c = '-' then some exponentSign else none
  | exponentSign | exponent => if c.isDigit then some exponent else none

/-- Whether a number ends before the next character or at the end of the text. A
zero in front is followed by no digit. -/
def endsBefore (part : NumberPart) : Option Char → Bool
  | none => part.isComplete
  | some c =>
    part.isComplete && (part.next? c).isNone && !(part == zero && c.isDigit)

/-- The value of a complete number. -/
def value (part : NumberPart) (text : String) : Json :=
  if part.isIntegral then
    match text.toList with
    | '-' :: rest =>
      match Radix.decimal.natural? rest with
      | some (n + 1) => .integer (-(n + 1))
      | _ => .decimal text
    | rest => .integer ((Radix.decimal.natural? rest).getD 0)
  else .decimal text

end NumberPart

namespace JsonNumber

/-- The largest exponent that is counted. -/
def mostExponent : Nat := 0x7FFFFFFF

/-- The parts of a number without its sign. -/
structure Parts where
  /-- The digits before the point. -/
  whole : List Char
  /-- The digits behind it. -/
  fraction : List Char
  /-- Whether the exponent is negative. -/
  isSmall : Bool
  /-- The digits of the exponent. -/
  exponent : List Char

/-- Take a number without its sign apart. -/
def Parts.ofList (text : List Char) : Parts :=
  let whole := text.takeWhile Char.isDigit
  let rest := text.dropWhile Char.isDigit
  let (fraction, rest) := match rest with
    | '.' :: rest => (rest.takeWhile Char.isDigit, rest.dropWhile Char.isDigit)
    | _ => ([], rest)
  match rest with
  | _ :: '-' :: exponent => ⟨whole, fraction, true, exponent⟩
  | _ :: '+' :: exponent => ⟨whole, fraction, false, exponent⟩
  | _ :: exponent => ⟨whole, fraction, false, exponent⟩
  | [] => ⟨whole, fraction, false, []⟩

/-- Append digits to a value as long as it stays below a bound, and count the
digits that are left. -/
def extend (bound value : Nat) : List Char → Nat × Nat
  | [] => (value, 0)
  | c :: rest =>
    let next := 10 * value + (Radix.decimal.digit? c).getD 0
    if next < bound then extend bound next rest else (value, rest.length + 1)

/-- The power of ten as a double. -/
def power (exponent : Nat) : Float := Float.ofScientific 1 false exponent

/-- Scale a double by a power of ten, in steps that doubles can hold; there are at
most `steps` of them before it vanishes. Nothing if it grows too large. -/
def scale? (value : Float) (exponent : Int) : (steps : Nat) → Option Float
  | 0 => some 0
  | steps + 1 =>
    if exponent.natAbs ≤ 308 then
      if exponent < 0 then some (value / power exponent.natAbs)
      else
        let scaled := value * power exponent.natAbs
        if scaled.isInf then none else some scaled
    else if value == 0 then some 0
    else if 0 ≤ exponent then none
    else scale? (value / power 308) (exponent + 308) steps

/-- The double that a number without its sign stands for. If there is none, the
number of digits of the exponent that need not be read to see that. -/
def Parts.float (parts : Parts) : Except Nat Float :=
  let (whole, dropped) := extend UInt64.size 0 parts.whole
  let (units, unused) := extend UInt64.size whole parts.fraction
  let places : Int := parts.fraction.length - unused
  let start : Int := dropped - places
  let (size, left) := extend (mostExponent + 1) 0 parts.exponent
  if left = 0 then
    let exponent := if parts.isSmall then start - size else start + size
    match scale? (UInt64.ofNat units).toFloat exponent 4 with
    | some value => .ok value
    | none => .error 0
  else if units = 0 ∨ parts.isSmall then .ok 0
  else .error (left - 1)

/-- Say what a number is, or at which distance from its end it is known to be out
of range. -/
def describe (text : String) : Json → Except Nat String
  | .integer value =>
    if -0x8000000000000000 ≤ value ∧ value < UInt64.size then
      .ok ("integer `" ++ JsonLayout.integerText value ++ "`")
    else describeFloat text.toList
  | _ => describeFloat text.toList
where
  /-- Say what a number that is taken for a double is. -/
  describeFloat (text : List Char) : Except Nat String :=
    let (sign, digits) := match text with
      | '-' :: digits => ("-", digits)
      | digits => ("", digits)
    (Parts.ofList digits).float.map fun value =>
      "floating point `" ++ sign ++ (BinaryFloat.ofFloat value).shortest ++ "`"

end JsonNumber

namespace JsonReader

/-- Read the rest of a number. -/
def takeNumber (part : NumberPart) (text : String) (offset : Nat) :
    List Char → Except JsonStop ((Json × String) × JsonCursor)
  | [] =>
    if part.isComplete then .ok ((part.value text, text), ⟨[], offset⟩)
    else .error ⟨offset, .endInValue⟩
  | c :: rest =>
    if part.endsBefore (some c) then .ok ((part.value text, text), ⟨c :: rest, offset⟩)
    else match part.next? c with
      | some next => takeNumber next (text.push c) (offset + 1) rest
      | none => .error ⟨offset + 1, .invalidNumber⟩

/-- Read a number and say what it is. -/
def number (part : NumberPart) (c : Char) : JsonReader String := do
  skip
  let (value, text) ← fun cursor => takeNumber part c.toString cursor.offset cursor.rest
  match JsonNumber.describe text value with
  | .ok found => pure found
  | .error left => fun cursor => .error ⟨cursor.offset - left, .numberOutOfRange⟩

end JsonReader

end MessageCatalog
