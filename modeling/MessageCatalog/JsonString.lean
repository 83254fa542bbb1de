import MessageCatalog.Json
import MessageCatalog.JsonCursor
import MessageCatalog.Numeral

/-!
# Strings in JSON text

A string is read one character at a time. Escapes spell characters of the
basic plane; two of them spell one beyond it, as a surrogate pair. Whoever
needs the characters reads strictly and stops at half a pair. Whoever only has
to find the end of a value goes on, and gets no string.
-/

namespace MessageCatalog

/-- Where inside a string the next character stands. -/
inductive StringPart where
  | plain
  /-- Behind a backslash. -/
  | escape
  /-- Behind `\u`, with some of its four bytes left; `value` is what the others
  spell, if they are digits. -/
  | unit (left : Nat) (value : Option Nat)

/-- A string that is being read. -/
structure StringDraft where
  /-- The characters so far. -/
  text : String
  /-- Whether every surrogate so far was one of a pair. -/
  whole : Bool
  /-- The first half of a pair, if the last escape spelled one. -/
  high : Option Nat
  /-- What the next character belongs to. -/
  part : StringPart

namespace StringDraft

/-- The string before its first character. -/
def empty : StringDraft := ⟨"", true, none, .plain⟩

/-- Append a character. -/
def push (draft : StringDraft) (c : Char) : StringDraft :=
  ⟨draft.text.push c, draft.whole && draft.high.isNone, none, .plain⟩

/-- Append what a `\u` escape spells: a character or half of a pair. -/
def pushUnit (draft : StringDraft) (unit : Nat) : StringDraft :=
  if 0xD800 ≤ unit ∧ unit < 0xDC00 then
    ⟨draft.text, draft.whole && draft.high.isNone, some unit, .plain⟩
  else if 0xDC00 ≤ unit ∧ unit < 0xE000 then
    match draft.high with
    | some high =>
      let code := 0x10000 + (high - 0xD800) * 0x400 + (unit - 0xDC00)
      ⟨draft.text.push (Char.ofNat code), draft.whole, none, .plain⟩
    | none => ⟨draft.text, false, none, .plain⟩
  else draft.push (Char.ofNat unit)

/-- The finished string. -/
def finish (draft : StringDraft) : JsonString :=
  if draft.whole && draft.high.isNone then some draft.text else none

/-- The character that a simple escape stands for. -/
def escaped? : Char → Option Char
  | '\x22' => some '\x22'
  | '\\' => some '\\'
  | '/' => some '/'
  | 'b' => some '\x08'
  | 'f' => some '\x0c'
  | 'n' => some '\n'
  | 'r' => some '\r'
  | 't' => some '\t'
  | _ => none

/-- What the bytes of a `\u` escape spell with one more character. -/
def extendUnit (value : Option Nat) (c : Char) : Option Nat := do
  let high ← value
  let low ← Radix.hexadecimal.digit? c
  some (16 * high + low)

/-- Take one character other than the closing quote. -/
def take (strict : Bool) (draft : StringDraft) (c : Char) : Except JsonFault StringDraft :=
  match draft.part with
  | .plain =>
    if c = '\\' then .ok { draft with part := .escape }
    else if strict && draft.high.isSome then .error .unfinishedPair
    else if c.toNat < 0x20 then .error .controlCharacter
    else .ok (draft.push c)
  | .escape =>
    if c = 'u' then .ok { draft with part := .unit 4 (some 0) }
    else if strict && draft.high.isSome then .error .unfinishedPair
    else match escaped? c with
      | some plain => .ok (draft.push plain)
      | none => .error .invalidEscape
  | .unit left value =>
    let value := extendUnit value c
    if c.utf8Size < left then .ok { draft with part := .unit (left - c.utf8Size) value }
    else match value with
      | none => .error .invalidEscape
      | some unit =>
        let next := draft.pushUnit unit
        if strict && !next.whole then .error .loneSurrogate else .ok next

/-- Whether a character ends the string. Behind the first half of a pair, a
strict reader looks for the other half instead. -/
def endsWith (strict : Bool) (draft : StringDraft) (c : Char) : Bool :=
  match draft.part with
  | .plain => c == '\x22' && !(strict && draft.high.isSome)
  | _ => false

/-- How many bytes of the next character lie in front of a fault that it shows.
A control character is looked at before it is taken when nobody needs the
string, and the bytes of an escape are taken all four. -/
def reach (strict : Bool) (draft : StringDraft) : JsonFault → Nat
  | .controlCharacter => if strict then 1 else 0
  | .invalidEscape =>
    match draft.part with
    | .unit left _ => left
    | _ => 1
  | _ => 1

end StringDraft

namespace JsonReader

/-- Read the rest of a string, up to its closing quote. -/
def takeString (draft : StringDraft) (offset : Nat) :
    List Char → Except JsonStop (String × JsonCursor)
  | [] => .error ⟨offset, .endInString⟩
  | c :: rest =>
    if draft.endsWith true c then .ok (draft.text, ⟨rest, offset + 1⟩)
    else match draft.take true c with
      | .ok next => takeString next (offset + c.utf8Size) rest
      | .error fault => .error ⟨offset + draft.reach true fault, fault⟩

/-- Read a string behind its opening quote. -/
def string : JsonReader String := fun cursor => takeString .empty cursor.offset cursor.rest

end JsonReader

end MessageCatalog
