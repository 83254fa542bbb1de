/-!
# Integer numerals

A numeral is a nonempty run of digits, read without separators, blanks or a
base mark. A sign is never part of the run: whoever allows one takes it off
first. Ranges are checked on the exact value, so a long run of zeros in front
does not matter. A location names a line by a numeral, either absolutely or as a
step from the location before it. The sign tells the two apart, so a step is
always written with one, zero included.
-/

namespace MessageCatalog

/-- The two bases in which catalogs write numbers. -/
inductive Radix where
  | decimal
  | hexadecimal
  deriving DecidableEq

namespace Radix

/-- The number of different digits. -/
def base : Radix → Nat
  | decimal => 10
  | hexadecimal => 16

/-- The value of a digit; hexadecimal letters count in either case. -/
def digit? (radix : Radix) (c : Char) : Option Nat :=
  if c.isDigit then some (c.toNat - 48)
  else if radix = hexadecimal ∧ 'a' ≤ c ∧ c ≤ 'f' then some (c.toNat - 87)
  else if radix = hexadecimal ∧ 'A' ≤ c ∧ c ≤ 'F' then some (c.toNat - 55)
  else none

/-- Append the value of a run of digits to a value read so far. -/
def extend? (radix : Radix) (value : Nat) : List Char → Option Nat
  | [] => some value
  | c :: rest =>
    match radix.digit? c with
    | some d => extend? radix (radix.base * value + d) rest
    | none => none

/-- The value of a nonempty run of digits. -/
def natural? (radix : Radix) : List Char → Option Nat
  | [] => none
  | digits => radix.extend? 0 digits

/-- A number below `bound`, written as digits behind at most one plus sign. -/
def below? (radix : Radix) (bound : Nat) (text : List Char) : Option Nat :=
  let digits := match text with
    | '+' :: rest => rest
    | _ => text
  (radix.natural? digits).filter (· < bound)

end Radix

/-! ## Line references -/

/-- A line of a source file, counted from its start or from the last reference. -/
inductive LineNumber where
  /-- The line itself. -/
  | absolute (line : UInt32)
  /-- The distance from the line referred to before. -/
  | relative (delta : Int32)
  deriving DecidableEq

namespace LineNumber

/-- Read a line reference: digits alone are absolute, one sign in front makes
them relative. A value outside the range of its kind is refused. -/
def parse? (text : String) : Option LineNumber :=
  match text.toList with
  | '+' :: digits =>
    ((Radix.decimal.natural? digits).filter (· < 0x80000000)).map
      fun n : Nat => .relative (Int32.ofInt n)
  | '-' :: digits =>
    ((Radix.decimal.natural? digits).filter (· ≤ 0x80000000)).map
      fun n : Nat => .relative (Int32.ofInt (-n))
  | digits =>
    ((Radix.decimal.natural? digits).filter (· < UInt32.size)).map
      fun n : Nat => .absolute (UInt32.ofNat n)

/-- The text of a line reference. -/
def text : LineNumber → String
  | absolute line => line.toNat.repr
  | relative delta =>
    (if delta.toInt < 0 then "-" else "+") ++ delta.toInt.natAbs.repr

end LineNumber

end MessageCatalog
