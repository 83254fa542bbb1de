/-!
# JSON values

The tree that a JSON text stands for, with the members of an object in their
order and with repetitions, since decoders differ in what they make of both.
Numbers that are no plain integers keep their text. A string may spell half
of a surrogate pair; such a text is no value of any field and stands as
`none`. Values are written without any space, or one member a line with two
spaces of indentation for every level. Both append to the text written so far.
-/

namespace MessageCatalog

/-- The characters of a JSON string, or nothing if it spells half of a
surrogate pair. -/
abbrev JsonString := Option String

/-- A JSON value. -/
inductive Json where
  | null
  | bool (value : Bool)
  /-- A number without fraction and exponent; minus zero is not among them. -/
  | integer (value : Int)
  /-- Any other number, as it is written. -/
  | decimal (text : String)
  | string (text : JsonString)
  | array (elements : List Json)
  | object (members : List (JsonString × Json))

namespace Json

/-- A string value. -/
def text (value : String) : Json := .string (some value)

/-- A natural number. -/
def natural (value : Nat) : Json := .integer value

/-- An object with the given members. -/
def record (members : List (String × Json)) : Json :=
  .object (members.map fun member => (some member.1, member.2))

/-- A text, or null. -/
def textOrNull : Option String → Json
  | some value => .text value
  | none => .null

/-- A member that is left out when there is no value. -/
def optional (name : String) (encode : α → Json) : Option α → List (String × Json)
  | some value => [(name, encode value)]
  | none => []

/-- The last member of a name. -/
def member? (name : String) : Json → Option Json
  | .object members => (members.reverse.find? fun member => member.1 == some name).map Prod.snd
  | _ => none

/-- Keep of the members of one name only the last value. -/
def keepLast (members : List (JsonString × Json)) : List (JsonString × Json) :=
  members.foldr (fun member kept =>
    if kept.any (fun other => other.1 == member.1) then kept else member :: kept) []

mutual

/-- The value with the repeated members of every object reduced to the last. -/
def withoutRepeats : Json → Json
  | .array elements => .array (listWithoutRepeats elements)
  | .object members => .object (keepLast (membersWithoutRepeats members))
  | value => value

/-- Every element with repeated members reduced to the last. -/
def listWithoutRepeats : List Json → List Json
  | [] => []
  | value :: rest => value.withoutRepeats :: listWithoutRepeats rest

/-- Every member's value with repeated members reduced to the last. -/
def membersWithoutRepeats : List (JsonString × Json) → List (JsonString × Json)
  | [] => []
  | (name, value) :: rest => (name, value.withoutRepeats) :: membersWithoutRepeats rest

end

end Json

/-! ## Writing JSON text -/

namespace JsonLayout

/-- A character inside a JSON string: quotes, backslashes and control
characters are escaped. -/
def escape (c : Char) : String :=
  match c with
  | '\x22' => "\\\""
  | '\\' => "\\\\"
  | '\n' => "\\n"
  | '\r' => "\\r"
  | '\t' => "\\t"
  | '\x08' => "\\b"
  | '\x0c' => "\\f"
  | _ =>
    if c.toNat < 0x20 then
      "\\u00" ++ (if c.toNat < 16 then "0" else "") ++ String.ofList (Nat.toDigits 16 c.toNat)
    else String.singleton c

/-- Append a quoted string. -/
def quote (out : String) (text : String) : String :=
  (text.toList.foldl (fun out c => out ++ escape c) (out ++ "\"")) ++ "\""

/-- Append a string; a half surrogate pair is written as a replacement character. -/
def writeString (out : String) (text : JsonString) : String :=
  quote out (text.getD "\uFFFD")

/-- The text of an integer. -/
def integerText (value : Int) : String :=
  (if value < 0 then "-" else "") ++ value.natAbs.repr

mutual

/-- Append a value without spaces. -/
def write (out : String) : Json → String
  | .null => out ++ "null"
  | .bool value => out ++ if value then "true" else "false"
  | .integer value => out ++ integerText value
  | .decimal text => out ++ text
  | .string text => writeString out text
  | .array elements => writeElements (out ++ "[") true elements ++ "]"
  | .object members => writeMembers (out ++ "\x7b") true members ++ "\x7d"

/-- Append the elements of an array, with a comma before all but the first. -/
def writeElements (out : String) (isFirst : Bool) : List Json → String
  | [] => out
  | value :: rest => writeElements (write (if isFirst then out else out ++ ",") value) false rest

/-- Append the members of an object, with a comma before all but the first. -/
def writeMembers (out : String) (isFirst : Bool) : List (JsonString × Json) → String
  | [] => out
  | (name, value) :: rest =>
    writeMembers (write (writeString (if isFirst then out else out ++ ",") name ++ ":") value)
      false rest

end

/-- Start a line at a level of indentation. -/
def newLine (out : String) (level : Nat) : String :=
  out ++ "\n" ++ String.ofList (List.replicate (2 * level) ' ')

mutual

/-- Append a value with one element or member a line. -/
def writePretty (out : String) (level : Nat) : Json → String
  | .array [] => out ++ "[]"
  | .array (first :: rest) =>
    newLine (writePrettyElements (out ++ "[") (level + 1) true (first :: rest)) level ++ "]"
  | .object [] => out ++ "\x7b\x7d"
  | .object (first :: rest) =>
    newLine (writePrettyMembers (out ++ "\x7b") (level + 1) true (first :: rest)) level ++ "\x7d"
  | .null => out ++ "null"
  | .bool value => out ++ if value then "true" else "false"
  | .integer value => out ++ integerText value
  | .decimal text => out ++ text
  | .string text => writeString out text

/-- Append the elements of an array, each on its line. -/
def writePrettyElements (out : String) (level : Nat) (isFirst : Bool) : List Json → String
  | [] => out
  | value :: rest =>
    let start := newLine (if isFirst then out else out ++ ",") level
    writePrettyElements (writePretty start level value) level false rest

/-- Append the members of an object, each on its line. -/
def writePrettyMembers (out : String) (level : Nat) (isFirst : Bool) :
    List (JsonString × Json) → String
  | [] => out
  | (name, value) :: rest =>
    let start := newLine (if isFirst then out else out ++ ",") level
    writePrettyMembers (writePretty (writeString start name ++ ": ") level value) level false rest

end

end JsonLayout

namespace Json

/-- The text of a value without spaces. -/
def compact (value : Json) : String := JsonLayout.write "" value

/-- The text of a value with one element or member a line. -/
def pretty (value : Json) : String := JsonLayout.writePretty "" 0 value

end Json

end MessageCatalog
