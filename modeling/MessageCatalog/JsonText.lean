import MessageCatalog.JsonNumber
import MessageCatalog.JsonString

/-!
# Reading JSON text

An automaton takes the text of any value one character at a time. Arrays and
objects that are still open lie on a stack, so depth costs no recursion. The
grammar is strict: no comments, no trailing commas, no control characters in
strings, nothing behind the value.
-/

namespace MessageCatalog

namespace JsonText

/-- An array or object whose end was not read yet. -/
inductive Open where
  | array (elements : Array Json)
  /-- The members so far and the key of the one to come. -/
  | object (members : Array (JsonString × Json)) (key : JsonString)

/-- What the next character belongs to. -/
inductive Phase where
  /-- A value is due. -/
  | value
  /-- Behind an opening bracket. -/
  | listStart
  /-- Behind an opening brace. -/
  | objectStart
  /-- Behind a comma of an object. -/
  | key
  /-- Behind a key. -/
  | colon
  /-- Behind a value inside an array or object. -/
  | after
  /-- Inside a word, before the given characters. -/
  | word (rest : List Char) (value : Json)
  /-- Inside a number. -/
  | number (part : NumberPart) (text : String)
  /-- Inside a string, which is a key or a value. -/
  | string (isKey : Bool) (draft : StringDraft)
  /-- Behind the whole value. -/
  | done (value : Json)

/-- What is open and what comes next. -/
structure State where
  /-- The open arrays and objects, innermost first. -/
  stack : List Open
  /-- What the next character belongs to. -/
  phase : Phase

namespace State

/-- Put a complete value where it belongs. -/
def deliver (stack : List Open) (value : Json) : State :=
  match stack with
  | [] => ⟨[], .done value⟩
  | .array elements :: outer => ⟨.array (elements.push value) :: outer, .after⟩
  | .object members key :: outer => ⟨.object (members.push (key, value)) key :: outer, .after⟩

/-- Start the value that a character opens. -/
def startValue (stack : List Open) (c : Char) : Except JsonFault State :=
  match c with
  | 'n' => .ok ⟨stack, .word ['u', 'l', 'l'] .null⟩
  | 't' => .ok ⟨stack, .word ['r', 'u', 'e'] (.bool true)⟩
  | 'f' => .ok ⟨stack, .word ['a', 'l', 's', 'e'] (.bool false)⟩
  | '\x22' => .ok ⟨stack, .string false .empty⟩
  | '[' => .ok ⟨.array #[] :: stack, .listStart⟩
  | '\x7b' => .ok ⟨.object #[] none :: stack, .objectStart⟩
  | _ =>
    match NumberPart.first? c with
    | some part => .ok ⟨stack, .number part c.toString⟩
    | none => .error .expectedValue

/-- Take a character behind a value. -/
def takeAfter (stack : List Open) (c : Char) : Except JsonFault State :=
  match stack with
  | [] => .error .trailingCharacters
  | .array elements :: outer =>
    if c = ',' then .ok ⟨stack, .value⟩
    else if c = ']' then .ok (deliver outer (.array elements.toList))
    else .error .expectedListEnd
  | .object members _ :: outer =>
    if c = ',' then .ok ⟨stack, .key⟩
    else if c = '\x7d' then .ok (deliver outer (.object members.toList))
    else .error .expectedObjectEnd

/-- End a string: a value is delivered, a key waits for its value. -/
def closeString (stack : List Open) (isKey : Bool) (text : JsonString) : State :=
  match isKey, stack with
  | true, .object members _ :: outer => ⟨.object members text :: outer, .colon⟩
  | _, _ => deliver stack (.string text)

/-- Take a character inside a string. -/
def takeString (stack : List Open) (isKey : Bool) (draft : StringDraft) (c : Char) :
    Except JsonFault State :=
  if draft.endsWith false c then .ok (closeString stack isKey draft.finish)
  else (draft.take false c).map fun next => ⟨stack, .string isKey next⟩

/-- Start a key. -/
def startKey (stack : List Open) (c : Char) : Except JsonFault State :=
  if c = '\x22' then .ok ⟨stack, .string true .empty⟩ else .error .keyNotString

/-- Take a character that stands between values. -/
def takeBetween (state : State) (c : Char) : Except JsonFault State :=
  if JsonReader.isBlank c then .ok state
  else match state.phase, state.stack with
    | .listStart, .array elements :: outer =>
      if c = ']' then .ok (deliver outer (.array elements.toList)) else startValue state.stack c
    | .objectStart, .object members _ :: outer =>
      if c = '\x7d' then .ok (deliver outer (.object members.toList)) else startKey state.stack c
    | .key, stack => startKey stack c
    | .colon, stack => if c = ':' then .ok ⟨stack, .value⟩ else .error .expectedColon
    | .after, stack => takeAfter stack c
    | _, stack => startValue stack c

/-- Deliver a number that ends before the next character or the end. -/
def settle (state : State) (next : Option Char) : State :=
  match state.phase with
  | .number part text =>
    if part.endsBefore next then deliver state.stack (part.value text) else state
  | _ => state

/-- Take one character, which a number that stands before it does not end at. -/
def take (state : State) (c : Char) : Except JsonFault State :=
  match state.phase with
  | .string isKey draft => takeString state.stack isKey draft c
  | .word (next :: rest) value =>
    if c = next then
      if rest.isEmpty then .ok (deliver state.stack value) else .ok ⟨state.stack, .word rest value⟩
    else .error .expectedWord
  | .number part text =>
    match part.next? c with
    | some next => .ok ⟨state.stack, .number next (text.push c)⟩
    | none => .error .invalidNumber
  | _ => takeBetween state c

/-- How many bytes of the next character lie in front of a fault that it shows. -/
def reach (state : State) (fault : JsonFault) : Nat :=
  match state.phase with
  | .string _ draft => draft.reach false fault
  | _ => 1

/-- The fault when the text ends before the value does. -/
def endFault (state : State) : JsonFault :=
  match state.phase, state.stack with
  | .number _ _, _ => .invalidNumber
  | .string _ _, _ => .endInString
  | .listStart, _ | .after, .array _ :: _ => .endInList
  | .objectStart, _ | .key, _ | .colon, _ | .after, _ => .endInObject
  | _, _ => .endInValue

end State

/-- Take characters one by one up to the end of a value. -/
def run (state : State) (offset : Nat) : List Char → Except JsonStop (Json × JsonCursor)
  | [] =>
    match state.settle none with
    | ⟨_, .done value⟩ => .ok (value, ⟨[], offset⟩)
    | state => .error ⟨offset, state.endFault⟩
  | c :: rest =>
    match state.settle (some c) with
    | ⟨_, .done value⟩ => .ok (value, ⟨c :: rest, offset⟩)
    | state =>
      match state.take c with
      | .ok next => run next (offset + c.utf8Size) rest
      | .error fault => .error ⟨offset + state.reach fault, fault⟩

end JsonText

/-- Read any value. -/
def JsonReader.value : JsonReader Json := fun cursor =>
  JsonText.run ⟨[], .value⟩ cursor.offset cursor.rest

/-- The value of a JSON text. -/
def Json.parse (text : String) : Except JsonError Json := JsonReader.value.ofText text

end MessageCatalog
