import MessageCatalog.JsonText
import MessageCatalog.QuotedText

/-!
# Reading expected values from JSON text

Readers for values of known types. They look at the text from front to back
and stop at the first fault, be it one of the text or of the type. A record is
written as an object, in any order and with unknown members, or as an array of
its leading fields in the order of their declaration. A field that is missing
keeps its default; one that occurs twice is a fault.
-/

namespace MessageCatalog

/-- A field of a record: its name, and how its value is read into the record. -/
structure JsonField (ρ : Type) where
  /-- The name. -/
  name : String
  /-- Read the value. -/
  fill : ρ → JsonReader ρ

namespace JsonReader

/-- Stop at a value of another type than the expected one. A list or object is
seen by its first character, anything else is read first. -/
def stopMistyped (expected : String) : JsonReader α := do
  match ← peek with
  | some 'n' => skipWord ['n', 'u', 'l', 'l']; stopHere (.mistyped "null" expected)
  | some 't' => skipWord ['t', 'r', 'u', 'e']; stopHere (.mistyped "boolean `true`" expected)
  | some 'f' =>
    skipWord ['f', 'a', 'l', 's', 'e']
    stopHere (.mistyped "boolean `false`" expected)
  | some '[' => stopHere (.mistyped "sequence" expected)
  | some '\x7b' => stopHere (.mistyped "map" expected)
  | some '\x22' =>
    skip
    let text ← string
    stopHere (.mistyped ("string " ++ QuotedText.quote text) expected)
  | some c =>
    match NumberPart.first? c with
    | some part =>
      let found ← number part c
      stopHere (.mistyped found expected)
    | none => stopNext .expectedValue
  | none => stopNext .endInValue

/-- Read a truth value. -/
def boolean : JsonReader Bool := do
  match ← peekPlain with
  | some 't' => skipWord ['t', 'r', 'u', 'e']; pure true
  | some 'f' => skipWord ['f', 'a', 'l', 's', 'e']; pure false
  | _ => stopMistyped "a boolean"

/-- Read null. -/
def nothing : JsonReader Unit := do
  match ← peekPlain with
  | some 'n' => skipWord ['n', 'u', 'l', 'l']
  | _ => stopMistyped "unit"

/-- Take the colon behind a key. -/
def colon : JsonReader Unit := do
  match ← peekPlain with
  | some ':' => skip
  | some _ => stopNext .expectedColon
  | none => stopNext .endInObject

/-- Read a string whose opening quote comes next; it must be one of several words. -/
def word (words : List (String × α)) : JsonReader α := do
  skip
  let text ← string
  match words.lookup text with
  | some value => pure value
  | none => stopHere (.unknownWord text (words.map Prod.fst))

/-- Read a word that is the only key of an object, over null, behind the opening
brace. -/
def wordObject (words : List (String × α)) : JsonReader α := do
  match ← peekPlain with
  | some '\x22' =>
    let value ← word words
    colon
    nothing
    match ← peekPlain with
    | some '\x7d' => skip; pure value
    | some _ => stopHere .expectedValue
    | none => stopHere .endInObject
  | some _ => stopNext .keyNotString
  | none => stopNext .endInObject

/-- Read an alternative without content: one of several words, or an object in
which the word is the only key, over null. -/
def alternative (words : List (String × α)) : JsonReader α := do
  match ← peekPlain with
  | some '\x22' => word words
  | some '\x7b' =>
    skip
    wordObject words
  | some _ => stopNext .expectedValue
  | none => stopNext .endInValue

/-- Go on to the next element of an array, and tell whether there is one. -/
def nextElement (isFirst : Bool) : JsonReader Bool := do
  match ← peekPlain, isFirst with
  | none, _ => stopNext .endInList
  | some ']', _ => pure false
  | some _, true => pure true
  | some ',', false =>
    skip
    match ← peekPlain with
    | some ']' => stopNext .trailingComma
    | some _ => pure true
    | none => stopNext .endInValue
  | some _, false => stopNext .expectedListEnd

/-- End an array of which all elements were read. -/
def endElements : JsonReader Unit := do
  match ← peekPlain with
  | some ']' => skip
  | some ',' =>
    skip
    match ← peekPlain with
    | some ']' => stopNext .trailingComma
    | _ => stopNext .trailingCharacters
  | some _ => stopNext .trailingCharacters
  | none => stopNext .endInList

/-- Read fields from the elements of an array, up to its end. -/
def elements (isFirst : Bool) (record : ρ) : List (JsonField ρ) → JsonReader ρ
  | [] => do
    endElements
    pure record
  | field :: rest => do
    if ← nextElement isFirst then elements false (← field.fill record) rest
    else
      endElements
      pure record

/-- Go on to the next key of an object, and read it if there is one. -/
def nextKey? (isFirst : Bool) : JsonReader (Option String) := do
  match ← peekPlain, isFirst with
  | none, _ => stopNext .endInObject
  | some '\x7d', _ => pure none
  | some '\x22', true => skip; some <$> string
  | some _, true => stopNext .keyNotString
  | some ',', false =>
    skip
    match ← peekPlain with
    | some '\x22' => skip; some <$> string
    | some '\x7d' => stopNext .trailingComma
    | some _ => stopNext .keyNotString
    | none => stopNext .endInValue
  | some _, false => stopNext .expectedObjectEnd

/-- Stop at a field that occurs twice. The brace that ends the object belongs to
what is read by then. -/
def stopRepeated (name : String) : JsonReader α := do
  match ← peekPlain with
  | some '\x7d' => stopNext (.repeatedField name)
  | _ => stopHere (.repeatedField name)

/-- Read fields from the members of an object, up to its end; `seen` names the
members that were read, and there are less than `fuel` of them left. -/
def members (fields : List (JsonField ρ)) (seen : List String) (record : ρ) :
    (fuel : Nat) → JsonReader ρ
  | 0 => pure record
  | fuel + 1 => do
    match ← nextKey? seen.isEmpty with
    | none =>
      skip
      pure record
    | some key =>
      match fields.find? (·.name == key) with
      | some field =>
        if seen.contains key then stopRepeated key
        else
          colon
          members fields (key :: seen) (← field.fill record) fuel
      | none =>
        colon
        let _ ← value
        members fields (key :: seen) record fuel

/-- The number of characters that are left. -/
def remaining : JsonReader Nat := fun cursor => .ok (cursor.rest.length, cursor)

/-- Read a record whose fields have defaults. -/
def record (expected : String) (fields : List (JsonField ρ)) (default : ρ) : JsonReader ρ := do
  match ← peekPlain with
  | some '[' =>
    skip
    elements true default fields
  | some '\x7b' =>
    skip
    members fields [] default ((← remaining) + 1)
  | _ => stopMistyped expected

end JsonReader

end MessageCatalog
