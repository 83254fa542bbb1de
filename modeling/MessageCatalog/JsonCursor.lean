/-!
# Walking through JSON text

A reader takes characters from the front of a text and answers a value, or
stops at a fault: the text is no JSON, or not the JSON of the value looked for.
It knows how many bytes lie behind it. A fault is placed either where the reader
stands or behind one byte of the next character; people are told a line and the
number of bytes of that line up to the fault.
-/

namespace MessageCatalog

/-! ## Faults -/

/-- Why a text is no JSON, or not that of the value looked for. -/
inductive JsonFault where
  | endInList
  | endInObject
  | endInString
  | endInValue
  | expectedColon
  | expectedListEnd
  | expectedObjectEnd
  | expectedWord
  | expectedValue
  | invalidEscape
  | invalidNumber
  | numberOutOfRange
  | controlCharacter
  /-- An escape spells one half of a surrogate pair without the other. -/
  | loneSurrogate
  /-- The first half of a surrogate pair is followed by no escape. -/
  | unfinishedPair
  | keyNotString
  | trailingComma
  | trailingCharacters
  /-- A value is of another type than the expected one. -/
  | mistyped (found expected : String)
  /-- A field of a record occurs twice. -/
  | repeatedField (name : String)
  /-- A word is none of those that are known. -/
  | unknownWord (word : String) (known : List String)
  deriving DecidableEq

/-- The sentence that tells a fault. -/
def JsonFault.message : JsonFault → String
  | endInList => "EOF while parsing a list"
  | endInObject => "EOF while parsing an object"
  | endInString => "EOF while parsing a string"
  | endInValue => "EOF while parsing a value"
  | expectedColon => "expected `:`"
  | expectedListEnd => "expected `,` or `]`"
  | expectedObjectEnd => "expected `,` or `\x7d`"
  | expectedWord => "expected ident"
  | expectedValue => "expected value"
  | invalidEscape => "invalid escape"
  | invalidNumber => "invalid number"
  | numberOutOfRange => "number out of range"
  | controlCharacter =>
    "control character (\\u0000-\\u001F) found while parsing a string"
  | loneSurrogate => "lone leading surrogate in hex escape"
  | unfinishedPair => "unexpected end of hex escape"
  | keyNotString => "key must be a string"
  | trailingComma => "trailing comma"
  | trailingCharacters => "trailing characters"
  | mistyped found expected => "invalid type: " ++ found ++ ", expected " ++ expected
  | repeatedField name => "duplicate field `" ++ name ++ "`"
  | unknownWord word known =>
    "unknown variant `" ++ word ++ "`, expected `" ++ "` or `".intercalate known ++ "`"

/-- A fault with its place in the text. -/
structure JsonError where
  /-- The line, counted from one. -/
  line : Nat
  /-- The number of bytes of that line up to the fault. -/
  column : Nat
  /-- The reason. -/
  fault : JsonFault
  deriving DecidableEq

namespace JsonError

/-- The line and column that lie `offset` bytes behind those given. An offset may
divide a character; no place lies behind the end. -/
def locate (line column offset : Nat) : List Char → Nat × Nat
  | [] => (line, column)
  | c :: rest =>
    if offset < c.utf8Size then (line, column + offset)
    else if c = '\n' then locate (line + 1) 0 (offset - 1) rest
    else locate line (column + c.utf8Size) (offset - c.utf8Size) rest

/-- A fault behind some bytes of a text. -/
def ofOffset (text : List Char) (offset : Nat) (fault : JsonFault) : JsonError :=
  let (line, column) := locate 1 0 offset text
  ⟨line, column, fault⟩

/-- The sentence that tells a fault and its place. -/
def message (error : JsonError) : String :=
  error.fault.message ++ " at line " ++ error.line.repr ++ " column " ++ error.column.repr

end JsonError

/-! ## Readers -/

/-- A place in a JSON text. -/
structure JsonCursor where
  /-- What is left of the text. -/
  rest : List Char
  /-- The number of bytes read. -/
  offset : Nat

/-- Where and why reading stopped. -/
structure JsonStop where
  /-- The number of bytes in front of the fault. -/
  offset : Nat
  /-- The reason. -/
  fault : JsonFault
  deriving DecidableEq

/-- Takes a value from the front of a text. -/
abbrev JsonReader (α : Type) := StateT JsonCursor (Except JsonStop) α

namespace JsonReader

/-- White space between the parts of a JSON text. -/
def isBlank (c : Char) : Bool := c == ' ' || c == '\n' || c == '\t' || c == '\r'

/-- Stop where the reader stands. -/
def stopHere (fault : JsonFault) : JsonReader α := fun cursor =>
  .error ⟨cursor.offset, fault⟩

/-- Stop behind one byte of the next character, or at the end. -/
def stopNext (fault : JsonFault) : JsonReader α := fun cursor =>
  .error ⟨if cursor.rest.isEmpty then cursor.offset else cursor.offset + 1, fault⟩

/-- Take the next character, if there is one. -/
def skip : JsonReader Unit := fun cursor =>
  match cursor.rest with
  | [] => .ok ((), cursor)
  | c :: rest => .ok ((), ⟨rest, cursor.offset + c.utf8Size⟩)

/-- Look at the next character. -/
def peek : JsonReader (Option Char) := fun cursor => .ok (cursor.rest.head?, cursor)

/-- Take the white space that comes next; each of its characters is one byte. -/
def skipBlanks : JsonReader Unit := fun cursor =>
  let blanks := cursor.rest.takeWhile isBlank
  .ok ((), ⟨cursor.rest.dropWhile isBlank, cursor.offset + blanks.length⟩)

/-- Look at the next character that is not blank. -/
def peekPlain : JsonReader (Option Char) := do
  skipBlanks
  peek

/-- Take the letters of a word. -/
def skipWord : List Char → JsonReader Unit
  | [] => pure ()
  | letter :: word => do
    match ← peek with
    | none => stopNext .endInValue
    | some c =>
      if c = letter then
        skip
        skipWord word
      else stopNext .expectedWord

/-- Make sure that nothing but white space is left. -/
def finish : JsonReader Unit := do
  match ← peekPlain with
  | none => pure ()
  | some _ => stopNext .trailingCharacters

/-- Read a whole text. -/
def ofText (reader : JsonReader α) (text : String) : Except JsonError α :=
  match (do let value ← reader; finish; pure value : JsonReader α).run ⟨text.toList, 0⟩ with
  | .ok (value, _) => .ok value
  | .error stop => .error (.ofOffset text.toList stop.offset stop.fault)

end JsonReader

end MessageCatalog
