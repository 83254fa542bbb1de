import MessageCatalog.Entity

/-!
# Tags and attributes

A start tag is a name and a list of attributes. Names are not checked. Keys
end at an equals sign or white space, values stand in quotes of either kind,
and no space is needed between attributes. Faults are placed by byte offsets
from the start of the tag's content.
-/

namespace MessageCatalog

/-- White space inside tags. -/
def isTagSpace (c : Char) : Bool := c == ' ' || c == '\r' || c == '\n' || c == '\t'

/-- The content of a start tag. -/
structure Tag where
  /-- The characters up to the first white space. -/
  name : List Char
  /-- All that follows, unread. -/
  attributes : List Char
  deriving DecidableEq

/-- Take the content of a start tag apart. -/
def Tag.ofContent (content : List Char) : Tag :=
  ⟨content.takeWhile (!isTagSpace ·), content.dropWhile (!isTagSpace ·)⟩

/-- Why attributes cannot be read. Positions are byte offsets. -/
inductive AttributeFault where
  /-- A key without an equals sign. -/
  | expectedEquals (position : Nat)
  /-- A key for the second time. -/
  | duplicate (position earlier : Nat)
  /-- An equals sign with nothing behind it. -/
  | expectedValue (position : Nat)
  /-- A value without quotes. -/
  | unquoted (position : Nat)
  /-- A value whose closing quote is missing. -/
  | unclosed (position : Nat) (quote : Char)
  deriving DecidableEq

namespace AttributeFault

/-- The opening of all sentences. -/
def placed (position : Nat) (reason : String) : String :=
  "position " ++ position.repr ++ ": " ++ reason

/-- The sentence that tells a fault. -/
def message : AttributeFault → String
  | expectedEquals position =>
    placed position "attribute key must be directly followed by `=` or space"
  | duplicate position earlier =>
    placed position ("duplicated attribute, previous declaration at position " ++ earlier.repr)
  | expectedValue position => placed position "`=` must be followed by an attribute value"
  | unquoted position => placed position "attribute value must be enclosed in `\"` or `'`"
  | unclosed position quote =>
    placed position
      ("missing closing quote `" ++ String.singleton quote ++ "` in attribute value")

end AttributeFault

/-- The key of an attribute. -/
structure AttributeKey where
  /-- The key itself. -/
  key : List Char
  /-- The byte offset of its first character. -/
  position : Nat
  /-- The byte offset behind the equals sign. -/
  stop : Nat
  /-- The characters behind the equals sign. -/
  rest : List Char

/-- The value of an attribute. -/
structure AttributeValue where
  /-- The characters between the quotes. -/
  value : List Char
  /-- The byte offset behind the closing quote. -/
  stop : Nat
  /-- The characters behind the closing quote. -/
  rest : List Char

namespace Tag

/-- Read the next key, if there is one. A key has at least one character, which
may be an equals sign. -/
def takeKey (position : Nat) (text : List Char) :
    Except AttributeFault (Option AttributeKey) :=
  match text.dropWhile isTagSpace with
  | [] => .ok none
  | first :: more =>
    let start := position + (text.takeWhile isTagSpace).length
    let inKey := fun c => !(c == '=' || isTagSpace c)
    let key := first :: more.takeWhile inKey
    let behind := more.dropWhile inKey
    let stop := start + Utf8.length key + (behind.takeWhile isTagSpace).length
    match behind.dropWhile isTagSpace with
    | '=' :: rest => .ok (some ⟨key, start, stop + 1, rest⟩)
    | _ => .error (.expectedEquals stop)

/-- Read a value behind an equals sign. -/
def takeValue (position : Nat) (text : List Char) : Except AttributeFault AttributeValue :=
  let start := position + (text.takeWhile isTagSpace).length
  match text.dropWhile isTagSpace with
  | [] => .error (.expectedValue start)
  | quote :: more =>
    if quote = '\x22' ∨ quote = '\x27' then
      let value := more.takeWhile (· != quote)
      let stop := start + 1 + Utf8.length value
      match more.dropWhile (· != quote) with
      | _ :: rest => .ok ⟨value, stop + 1, rest⟩
      | [] => .error (.unclosed stop quote)
    else .error (.unquoted start)

/-- Characters dropped from the front leave a text that is no longer. -/
theorem length_dropWhile_le (p : α → Bool) (text : List α) :
    (text.dropWhile p).length ≤ text.length :=
  (List.dropWhile_suffix p).length_le

/-- A key takes at least one character. -/
theorem takeKey_rest_lt {position : Nat} {text : List Char} {key : AttributeKey}
    (h : takeKey position text = .ok (some key)) : key.rest.length < text.length := by
  unfold takeKey at h
  have outer := length_dropWhile_le isTagSpace text
  split at h
  · simp at h
  next first more equation =>
    have inner := length_dropWhile_le (fun c => !(c == '=' || isTagSpace c)) more
    have blank := length_dropWhile_le isTagSpace
      (more.dropWhile fun c => !(c == '=' || isTagSpace c))
    simp only [equation, List.length_cons] at outer
    dsimp only at h
    split at h
    next rest equals =>
      simp only [equals, List.length_cons] at blank
      simp only [Except.ok.injEq, Option.some.injEq] at h
      subst h
      dsimp only
      omega
    · simp at h

/-- A value takes at least its quotes. -/
theorem takeValue_rest_lt {position : Nat} {text : List Char} {value : AttributeValue}
    (h : takeValue position text = .ok value) : value.rest.length < text.length := by
  unfold takeValue at h
  have outer := length_dropWhile_le isTagSpace text
  dsimp only at h
  split at h
  · simp at h
  next quote more equation =>
    have inner := length_dropWhile_le (· != quote) more
    simp only [equation, List.length_cons] at outer
    split at h
    · split at h
      next _ rest behind =>
        simp only [behind, List.length_cons] at inner
        simp only [Except.ok.injEq] at h
        subst h
        dsimp only
        omega
      · simp at h
    · simp at h

/-- Why the attributes of a tag cannot be had. -/
inductive Fault where
  | attribute (fault : AttributeFault)
  | entity (fault : EntityFault)
  deriving DecidableEq

/-- Read all attributes from byte `position` on, entities resolved. `seen` holds
the keys read before with their offsets. The first fault wins. -/
def readAttributes (position : Nat) (seen : List (List Char × Nat))
    (before : Array (String × String)) (text : List Char) :
    Except Fault (List (String × String)) :=
  match _read : takeKey position text with
  | .error fault => .error (.attribute fault)
  | .ok none => .ok before.toList
  | .ok (some key) =>
    match seen.find? (·.1 == key.key) with
    | some earlier => .error (.attribute (.duplicate key.position earlier.2))
    | none =>
      match _taken : takeValue key.stop key.rest with
      | .error fault => .error (.attribute fault)
      | .ok value =>
        match Entity.unescape value.value with
        | .error fault => .error (.entity fault)
        | .ok plain =>
          readAttributes value.stop ((key.key, key.position) :: seen)
            (before.push (String.ofList key.key, plain)) value.rest
termination_by text.length
decreasing_by
  have := takeKey_rest_lt _read
  have := takeValue_rest_lt _taken
  omega

/-- The attributes of a tag in their order. -/
def attributeList (tag : Tag) : Except Fault (List (String × String)) :=
  readAttributes (Utf8.length tag.name) [] #[] tag.attributes

/-- The raw value of the first attribute of a key. Keys may repeat, and nothing
is found behind a fault. -/
def firstValue? (name : List Char) (position : Nat) (text : List Char) : Option (List Char) :=
  match _read : takeKey position text with
  | .error _ => none
  | .ok none => none
  | .ok (some key) =>
    match _taken : takeValue key.stop key.rest with
    | .error _ => none
    | .ok value =>
      if key.key = name then some value.value
      else firstValue? name value.stop value.rest
termination_by text.length
decreasing_by
  have := takeKey_rest_lt _read
  have := takeValue_rest_lt _taken
  omega

end Tag

end MessageCatalog
