import MessageCatalog.Numeral
import MessageCatalog.Utf8

/-!
# Place markers

A text may hold markers for values that are filled in later: a percent sign, an
optional letter for the localized spelling, and one or two digits. The number
zero marks nothing. Digits count greedily, two where there are two. The search
goes over the bytes of the text, and behind the digits of a marker it goes on
with the byte that follows them.
-/

namespace MessageCatalog

namespace PlaceMarker

/-- The byte of the percent sign. -/
def percent : UInt8 := 0x25

/-- The byte of the letter for the localized spelling. -/
def localized : UInt8 := 0x4C

/-- Whether a byte is that of a digit. -/
def isDigitByte (byte : UInt8) : Bool := 0x30 ≤ byte && byte ≤ 0x39

/-- Whether an offset is at the end of a text or at the first byte of a character. The
bytes in between continue a character. -/
def isBoundary (bytes : Array UInt8) (offset : Nat) : Bool :=
  match bytes[offset]? with
  | some byte => byte < 0x80 || 0xC0 ≤ byte
  | none => offset == bytes.size

/-- The text between two offsets. There is none if they are not in order, or if one
of them is out of range or inside a character. -/
def slice? (bytes : Array UInt8) (start stop : Nat) : Option String :=
  if start ≤ stop ∧ isBoundary bytes start ∧ isBoundary bytes stop then
    (Utf8.decode ⟨bytes.extract start stop⟩).toOption
  else none

/-- The bytes from an offset on. There are none if it is out of range. -/
def behind? (bytes : Array UInt8) (start : Nat) : Option (List UInt8) :=
  if start ≤ bytes.size then some (bytes.extract start).toList else none

/-- How many digits there are in front, two at most. -/
def digitCount (bytes : List UInt8) : Nat := ((bytes.take 2).takeWhile isDigitByte).length

/-- Put a number into an ascending list, unless it is in it. -/
def insert (number : Nat) : List Nat → List Nat
  | [] => [number]
  | first :: rest =>
    if number < first then number :: first :: rest
    else if number = first then first :: rest
    else first :: insert number rest

/-- Add the number that some digits stand for, unless it is zero. -/
def add (digits : String) (found : List Nat) : List Nat :=
  match Radix.decimal.below? UInt32.size digits.toList with
  | some (number + 1) => insert (number + 1) found
  | _ => found

/-- Where the digits of a marker stand whose percent sign is at an offset. -/
def digitsStart (bytes : Array UInt8) (offset : Nat) : Nat :=
  if bytes[offset + 1]? = some localized then offset + 2 else offset + 1

/-- The digits stand behind the percent sign. -/
theorem lt_digitsStart (bytes : Array UInt8) (offset : Nat) : offset < digitsStart bytes offset := by
  unfold digitsStart
  split <;> omega

/-- Add the numbers of the markers from an offset on to an ascending list. There is
no result if bytes or text are asked for that there are not. -/
@[semireducible]
def scan? (bytes : Array UInt8) (offset : Nat) (found : List Nat) : Option (List Nat) :=
  if inside : offset < bytes.size then
    if bytes[offset] = percent then
      let start := digitsStart bytes offset
      match behind? bytes start with
      | none => none
      | some behind =>
        let stop := start + digitCount behind
        if start < stop then
          match slice? bytes start stop with
          | none => none
          | some digits => scan? bytes stop (add digits found)
        else scan? bytes (offset + 1) found
    else scan? bytes (offset + 1) found
  else some found
termination_by bytes.size - offset
decreasing_by
  all_goals
    have := lt_digitsStart bytes offset
    omega

/-- The numbers of the markers of a text, ascending and each once. -/
def numbers (text : String) : List Nat := (scan? text.toUTF8.data 0 []).getD []

/-- The numbers that only one of two ascending lists holds. -/
def differing (left right : List Nat) : List Nat :=
  left.filter (!right.contains ·) ++ right.filter (!left.contains ·)

/-- The markers that only the source or only some translated text holds,
ascending. Empty texts are not translated yet and do not count. -/
def mismatches (source : String) (texts : List String) : List Nat :=
  let expected := numbers source
  let differences := (texts.filter (!·.isEmpty)).flatMap fun text =>
    differing expected (numbers text)
  differences.foldl (fun found number => insert number found) []

end PlaceMarker

end MessageCatalog
