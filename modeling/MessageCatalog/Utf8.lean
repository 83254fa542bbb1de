/-!
# UTF-8

Offsets in documents count bytes of the UTF-8 encoding, while text is handled
by characters. This module counts the bytes of characters and decodes byte
strings, telling where the first malformed byte is. People find a place in a
document by line and column. Columns count characters, but a place is looked
for among the bytes: of the bytes of a character only the first one counts.
-/

namespace MessageCatalog

namespace Utf8

/-- The number of bytes that encode a text. -/
def length (text : List Char) : Nat := text.foldl (fun n c => n + c.utf8Size) 0

/-- The character that has the first byte of a character's encoding as its code. -/
def leadByte (c : Char) : Char :=
  Char.ofNat ((String.utf8EncodeChar c).headD 0).toNat

/-- The length of the longest well-formed part that starts at an offset, added
to that offset. -/
def validUpTo (bytes : ByteArray) (offset : Nat) : Nat :=
  match _read : bytes.utf8DecodeChar? offset with
  | some c => validUpTo bytes (offset + c.utf8Size)
  | none => offset
termination_by bytes.size - offset
decreasing_by
  have := ByteArray.le_size_of_utf8DecodeChar?_eq_some _read
  have := c.utf8Size_pos
  omega

/-- The text that bytes encode, or the offset of the first malformed byte. -/
def decode (bytes : ByteArray) : Except Nat String :=
  match String.fromUTF8? bytes with
  | some text => .ok text
  | none => .error (validUpTo bytes 0)

end Utf8

/-! ## Positions -/

/-- A place in a document; lines and columns count from one. -/
structure Position where
  /-- The line. -/
  line : Nat
  /-- The column in characters. -/
  column : Nat
  deriving DecidableEq

namespace Position

/-- The start of a document. -/
def first : Position := ⟨1, 1⟩

/-- The byte of the character that ends a line. -/
def lineBreak : UInt8 := 0x0A

/-- Whether a byte is the first one of a character. The others have a one and a zero
as their highest bits. -/
def beginsCharacter (byte : UInt8) : Bool := byte &&& 0xC0 != 0x80

/-- Where the last line of some bytes starts: behind the last line break, which is
looked for from the end. -/
def lineStart (bytes : List UInt8) : Nat :=
  match bytes.reverse.findIdx? (· == lineBreak) with
  | some behind => bytes.length - behind
  | none => 0

/-- The place behind some bytes. -/
def ofBytes (bytes : List UInt8) : Position :=
  ⟨bytes.count lineBreak + 1, (bytes.drop (lineStart bytes)).countP beginsCharacter + 1⟩

/-- The place behind `offset` bytes of a document. A character that the offset
divides counts as read, and no place lies behind the end. -/
def ofOffset (text : List Char) (offset : Nat) : Position :=
  ofBytes ((text.flatMap String.utf8EncodeChar).take offset)

/-- Line and column for people to read. -/
def text (position : Position) : String :=
  "line " ++ position.line.repr ++ ", column " ++ position.column.repr

end Position

end MessageCatalog
