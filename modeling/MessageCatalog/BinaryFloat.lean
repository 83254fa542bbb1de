/-!
# Decimal text of binary floats

A finite double is the fraction of two naturals, so its decimal texts are
exact integer arithmetic on that fraction: a fixed number of places, rounded
to nearest with halves to even, or the fewest digits that no other double
shares. A sign is left to others: only the magnitude is read off a double.
-/

namespace MessageCatalog

/-- A finite double that is not negative, as `mantissa * 2 ^ exponent`. -/
structure BinaryFloat where
  /-- The integral significand. -/
  mantissa : Nat
  /-- The power of two. -/
  exponent : Int

namespace BinaryFloat

/-- The least mantissa of a double that is not subnormal. -/
def normal : Nat := 0x10000000000000

/-- Take the fields of a double apart. -/
def ofFloat (value : Float) : BinaryFloat :=
  let bits : Nat := value.toBits.toNat
  let field : Nat := bits / normal % 2048
  let fraction : Nat := bits % normal
  if field = 0 then ⟨fraction, -1074⟩ else ⟨normal + fraction, Int.ofNat field - 1075⟩

/-- A power of ten as a numerator over a denominator. -/
def tens (exponent : Int) : Nat × Nat :=
  (Nat.pow 10 exponent.toNat, Nat.pow 10 (-exponent).toNat)

/-- The exact value in units of which there are `10 ^ places` to one: a numerator
over a denominator. -/
def ratio (value : BinaryFloat) (places : Int) : Nat × Nat :=
  (value.mantissa * (tens places).1 * Nat.pow 2 value.exponent.toNat,
    (tens places).2 * Nat.pow 2 (-value.exponent).toNat)

/-- The nearest natural to a quotient; a half goes to the even one. -/
def roundDiv (numerator denominator : Nat) : Nat :=
  let quotient := numerator / denominator
  let twice := 2 * (numerator % denominator)
  if twice < denominator then quotient
  else if denominator < twice then quotient + 1
  else quotient + quotient % 2

/-- The digits of `units`, of which the last `places` stand behind the point. -/
def pointText (units places : Nat) : String :=
  let digits := units % Nat.pow 10 places
  let padded := (Nat.pow 10 places + digits).repr.toList.drop 1
  (units / Nat.pow 10 places).repr ++
    if places = 0 then "" else "." ++ String.ofList padded

/-- The value with a fixed number of places. -/
def fixed (value : BinaryFloat) (places : Nat) : String :=
  let (numerator, denominator) := value.ratio places
  pointText (roundDiv numerator denominator) places

/-- Whether a count of units, `10 ^ places` of them to one, lies among the reals
that round to the value. The bounds are halfway to the neighbours and belong
to the value when its mantissa is even. -/
def isNear (value : BinaryFloat) (places : Int) (units : Nat) : Bool :=
  let (numerator, denominator) := value.ratio places
  let step := (tens places).1 * Nat.pow 2 value.exponent.toNat
  let below := if value.mantissa = normal then step else 2 * step
  let low := 4 * numerator - below
  let high := 4 * numerator + 2 * step
  let point := 4 * units * denominator
  if value.mantissa % 2 = 0 then low ≤ point && point ≤ high else low < point && point < high

/-- The decimal of a number of places that rounds to the value: the nearest one,
or else the neighbour on the other side. -/
def decimal? (value : BinaryFloat) (places : Int) : Option Nat :=
  let (numerator, denominator) := value.ratio places
  let below := numerator / denominator
  [roundDiv numerator denominator, below, below + 1].find? (value.isNear places)

/-- The most zeros that end the shortest decimal of a double. -/
def mostZeros : Nat := 308

/-- The number of places up to which the shortest decimal is searched. -/
def mostPlaces : Nat := 1100

/-- The units and places of the decimal with the fewest places that no other
double shares. Negative places stand for zeros at the end. -/
def shortestDecimal (value : BinaryFloat) : Nat × Int :=
  let found := (List.range (mostZeros + mostPlaces)).findSome? fun (n : Nat) =>
    let places : Int := Int.ofNat n - mostZeros
    (value.decimal? places).map fun units => (units, places)
  found.getD (0, 0)

/-- A decimal with at least one place. -/
def positionalText (units : Nat) (places : Int) : String :=
  if places ≤ 0 then (units * (tens (-places)).1).repr ++ ".0" else pointText units places.toNat

/-- A decimal with one digit before the point and a power of ten. -/
def exponentText (digits : List Char) (exponent : Int) : String :=
  let behind := digits.drop 1
  String.ofList (digits.take 1) ++
    (if behind.isEmpty then "" else "." ++ String.ofList behind) ++
    (if exponent < 0 then "e-" else "e+") ++ exponent.natAbs.repr

/-- The value with the fewest digits that no other double shares. Values from a
hundred-thousandth up to ten quadrillions, the latter excluded, are written
without a power of ten. -/
def shortest (value : BinaryFloat) : String :=
  let (units, places) := value.shortestDecimal
  let digits := units.repr.toList
  let exponent : Int := Int.ofNat digits.length - 1 - places
  if -5 ≤ exponent ∧ exponent ≤ 15 ∨ units = 0 then positionalText units places
  else exponentText digits exponent

end BinaryFloat

end MessageCatalog
