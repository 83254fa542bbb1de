import MessageCatalog.Numeral
import MessageCatalog.QuotedText
import MessageCatalog.Utf8

/-!
# Entities and escapes

Characters that would be read as markup are written as named entities, and
any character may be written by its number. Control characters that a
document cannot carry have an element of their own. Reading resolves the
entities of a run of text and places faults by byte offsets inside that run.
-/

namespace MessageCatalog

/-- Why a text with entities cannot be resolved. -/
inductive EntityFault where
  /-- An ampersand whose semicolon is missing, in a text of some length. -/
  | unterminated (start length : Nat)
  /-- No entity has this name. -/
  | unknown (start stop : Nat) (name : String)
  /-- More digits than the largest character needs. -/
  | tooLong (radix : Radix)
  /-- A character number with something else than a digit in it. -/
  | badDigit (radix : Radix) (symbol : Char)
  /-- The number zero, or none. -/
  | null (start stop : Nat)
  /-- A number that is no character. -/
  | noCharacter (code : Nat)
  deriving DecidableEq

namespace EntityFault

/-- The opening of the sentences that name a range of bytes. -/
def placed (start stop : Nat) (reason : String) : String :=
  "Error while escaping character at range " ++ start.repr ++ ".." ++ stop.repr ++ ": " ++ reason

/-- The sentence that tells a fault. -/
def message : EntityFault → String
  | unterminated start length => placed start length "Cannot find ';' after '&'"
  | unknown start stop name =>
    placed start stop ("Unrecognized escape symbol: " ++ QuotedText.quote name)
  | tooLong .hexadecimal => "Cannot convert hexadecimal to utf8"
  | tooLong .decimal => "Cannot convert decimal to utf8"
  | badDigit radix symbol =>
    "'" ++ String.singleton symbol ++ "' is not a valid " ++
      (match radix with
        | .hexadecimal => "hexadecimal"
        | .decimal => "decimal") ++ " character"
  | null start stop => placed start stop "Null character entity not allowed"
  | noCharacter code => "'" ++ code.repr ++ "' is not a valid codepoint"

end EntityFault

namespace Entity

/-- The character that a named entity stands for. -/
def named? : List Char → Option Char
  | ['l', 't'] => some '<'
  | ['g', 't'] => some '>'
  | ['a', 'm', 'p'] => some '&'
  | ['a', 'p', 'o', 's'] => some '\x27'
  | ['q', 'u', 'o', 't'] => some '\x22'
  | _ => none

/-- The most bytes that the digits of a character number may take. -/
def mostDigits : Radix → Nat
  | .decimal => 7
  | .hexadecimal => 6

/-- The value of the digits of a character number; no digits give zero. -/
def digitsValue (radix : Radix) (value : Nat) : List Char → Except EntityFault Nat
  | [] => .ok value
  | c :: rest =>
    match radix.digit? c with
    | some d => digitsValue radix (radix.base * value + d) rest
    | none => .error (.badDigit radix (Utf8.leadByte c))

/-- The number that an entity gives behind its hash sign. -/
def number (reference : List Char) : Except EntityFault Nat :=
  let (radix, digits) : Radix × List Char := match reference with
    | 'x' :: digits => (.hexadecimal, digits)
    | digits => (.decimal, digits)
  if mostDigits radix < Utf8.length digits then .error (.tooLong radix)
  else digitsValue radix 0 digits

/-- The character that an entity stands for. Its ampersand is at byte `start`,
its semicolon at byte `stop`. -/
def resolve (start stop : Nat) (name : List Char) : Except EntityFault Char :=
  match name with
  | '#' :: reference =>
    match number reference with
    | .error fault => .error fault
    | .ok code =>
      if code = 0 then .error (.null start stop)
      else if code.isValidChar then .ok (Char.ofNat code)
      else .error (.noCharacter code)
  | _ =>
    match named? name with
    | some c => .ok c
    | none => .error (.unknown (start + 1) stop (String.ofList name))

/-- Resolve the entities of a text from byte `offset` on. `pending` holds the
start of an open entity and its name so far, last character first; `out` is
the text resolved before. -/
def unescapeFrom (length offset : Nat) (pending : Option (Nat × List Char)) (out : String) :
    List Char → Except EntityFault String
  | [] =>
    match pending with
    | none => .ok out
    | some (start, _) => .error (.unterminated start length)
  | c :: rest =>
    match pending with
    | none =>
      if c = '&' then unescapeFrom length (offset + 1) (some (offset, [])) out rest
      else unescapeFrom length (offset + c.utf8Size) none (out.push c) rest
    | some (start, name) =>
      if c = ';' then
        match resolve start offset name.reverse with
        | .ok character => unescapeFrom length (offset + 1) none (out.push character) rest
        | .error fault => .error fault
      else if c = '&' then .error (.unterminated start length)
      else unescapeFrom length (offset + c.utf8Size) (some (start, c :: name)) out rest

/-- Resolve all entities of a text. -/
def unescape (text : List Char) : Except EntityFault String :=
  unescapeFrom (Utf8.length text) 0 none "" text

/-- A character in an attribute value: the five characters of markup become
entities. -/
def escapeMarkup (c : Char) : List Char :=
  match c with
  | '<' => ['&', 'l', 't', ';']
  | '>' => ['&', 'g', 't', ';']
  | '&' => ['&', 'a', 'm', 'p', ';']
  | '\x27' => ['&', 'a', 'p', 'o', 's', ';']
  | '\x22' => ['&', 'q', 'u', 'o', 't', ';']
  | _ => [c]

/-- A character in a text element. A carriage return becomes its number, so
that no reader takes it for a line end; other control characters but tab and
line feed become an element that names them. -/
def escapeText (c : Char) : List Char :=
  if c = '\t' ∨ c = '\n' then [c]
  else if c = '\r' then "&#xd;".toList
  else if c.toNat < 0x20 then
    "<byte value=\"x".toList ++ Nat.toDigits 16 c.toNat ++ "\"/>".toList
  else escapeMarkup c

end Entity

end MessageCatalog
