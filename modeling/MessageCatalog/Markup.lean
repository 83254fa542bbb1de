import MessageCatalog.Tag

/-!
# Markup events

A document is read as a sequence of events: runs of text, character data,
start and end tags, and constructs that carry nothing. A cursor holds what is
left to read, the byte offset reached and the names of the open elements. An
element that closes itself gives two events. Every event but the second of
such a pair takes at least one character, so reading always ends.
-/

namespace MessageCatalog

/-- The constructs that can be cut short. -/
inductive Construct where
  | bang
  | comment
  | data
  | doctype
  | instruction
  | element
  deriving DecidableEq

/-- The name of a construct. -/
def Construct.label : Construct → String
  | bang => "Bang"
  | comment => "Comment"
  | data => "CData"
  | doctype => "DOCTYPE"
  | instruction => "XmlDecl"
  | element => "Element"

/-- Why a document is not well formed. -/
inductive MarkupFault where
  /-- A construct without its end, or without its proper start. -/
  | unfinished (construct : Construct)
  /-- An exclamation mark with an unknown construct behind it. -/
  | strangeBang (symbol : Char)
  /-- A document type that says nothing. -/
  | emptyDoctype
  /-- An end tag that does not close the innermost open element. -/
  | mismatch (expected found : List Char)
  /-- Attributes that cannot be read. -/
  | inAttribute (fault : AttributeFault)
  /-- Text that cannot be resolved. -/
  | inEntity (fault : EntityFault)
  /-- The end of the document inside an element. -/
  | endInside (element : String)
  deriving DecidableEq

namespace MarkupFault

/-- The fault of a tag's attributes. -/
def ofTag : Tag.Fault → MarkupFault
  | .attribute fault => inAttribute fault
  | .entity fault => inEntity fault

/-- The sentence that tells a fault. -/
def message : MarkupFault → String
  | unfinished construct => "Unexpected EOF during reading " ++ construct.label
  | strangeBang symbol =>
    "Only Comment (`--`), CDATA (`[CDATA[`) and DOCTYPE (`DOCTYPE`) nodes can start with a '!', "
      ++ "but symbol `" ++ String.singleton symbol ++ "` found"
  | emptyDoctype => "DOCTYPE declaration must not be empty"
  | mismatch expected found =>
    "Expecting </" ++ String.ofList expected ++ "> found </" ++ String.ofList found ++ ">"
  | inAttribute fault => fault.message
  | inEntity fault => fault.message
  | endInside element => "unexpected end of document inside <" ++ element ++ ">"

end MarkupFault

/-- One step of a document. -/
inductive MarkupEvent where
  /-- Characters between markup, entities unresolved. -/
  | text (run : List Char)
  /-- A section of literal character data. -/
  | data (content : List Char)
  /-- The document's declaration, behind its name. -/
  | declaration (attributes : List Char)
  /-- A comment, a document type or a processing instruction. -/
  | remark
  /-- A start tag. -/
  | start (tag : Tag)
  /-- The end of the innermost open element. -/
  | stop
  deriving DecidableEq

/-- A place in a document between two events. -/
structure Cursor where
  /-- The characters not read yet. -/
  rest : List Char
  /-- The number of bytes read. -/
  offset : Nat
  /-- The names of the open elements, innermost first. -/
  opened : List (List Char)
  /-- Whether the last tag closes itself and its end is due. -/
  closing : Bool

/-- What there is to read at a cursor. -/
inductive Reading where
  /-- The end of the document. -/
  | finished (offset : Nat)
  /-- A fault, which ends all reading. -/
  | fault (offset : Nat) (fault : MarkupFault)
  /-- An event, the offset that counts as its place, and the cursor behind it. -/
  | event (offset : Nat) (event : MarkupEvent) (after : Cursor)

namespace Cursor

/-- The cursor before the first event. A byte order mark is passed over, but its
bytes do not count. -/
def ofText (text : List Char) : Cursor :=
  let rest := match text with
    | '\uFEFF' :: rest => rest
    | _ => text
  ⟨rest, 0, [], false⟩

/-- A number that falls with every event. -/
def size (cursor : Cursor) : Nat := 2 * cursor.rest.length + cursor.closing.toNat

/-- Split a text at the first occurrence of a mark. The part before it follows
the characters of `before`, which are in reverse order. -/
def splitAtMark (mark before : List Char) : List Char → Option (List Char × List Char)
  | [] => none
  | c :: rest =>
    if mark.isPrefixOf (c :: rest) then some (before.reverse, (c :: rest).drop mark.length)
    else splitAtMark mark (c :: before) rest

/-- Split a text at the first closing angle bracket that is not inside quotes.
`quote` is the quote that is open. -/
def splitTag (quote : Option Char) (before : List Char) :
    List Char → Option (List Char × List Char)
  | [] => none
  | c :: rest =>
    match quote with
    | some q => splitTag (if c = q then none else some q) (c :: before) rest
    | none =>
      if c = '>' then some (before.reverse, rest)
      else splitTag (if c = '\x27' ∨ c = '\x22' then some c else none) (c :: before) rest

/-- Split a text at the closing angle bracket that matches none in between.
`depth` counts those that are open. -/
def splitDoctype (depth : Nat) (before : List Char) :
    List Char → Option (List Char × List Char)
  | [] => none
  | c :: rest =>
    if c = '>' then
      match depth with
      | 0 => some (before.reverse, rest)
      | depth + 1 => splitDoctype depth (c :: before) rest
    else splitDoctype (if c = '<' then depth + 1 else depth) (c :: before) rest

/-- Whether a text starts with a word, letter case aside. -/
def startsWith (word text : List Char) : Bool :=
  (text.take word.length).map Char.toLower == word.map Char.toLower

/-- Read behind `<!-`. The comment's two closing dashes may not overlap the two
that open it. -/
def readComment (opened : List (List Char)) (offset : Nat) (text : List Char) : Reading :=
  match text with
  | [] => .fault offset (.unfinished .comment)
  | second :: content =>
    match splitAtMark ['-', '-', '>'] [] content with
    | none => .fault offset (.unfinished .comment)
    | some (inside, rest) =>
      let after := offset + 5 + second.utf8Size + Utf8.length inside
      if second = '-' then .event after .remark ⟨rest, after, opened, false⟩
      else .fault after (.unfinished .comment)

/-- Read behind `<![`. -/
def readData (opened : List (List Char)) (offset : Nat) (text : List Char) : Reading :=
  match splitAtMark [']', ']', '>'] [] text with
  | none => .fault offset (.unfinished .data)
  | some (inside, rest) =>
    let after := offset + 5 + Utf8.length inside
    if startsWith "CDATA[".toList inside then
      .event after (.data (inside.drop 6)) ⟨rest, after, opened, false⟩
    else .fault after (.unfinished .data)

/-- Read behind `<!`, from the letter on that announces a document type. -/
def readDoctype (opened : List (List Char)) (offset : Nat) (text : List Char) : Reading :=
  match splitDoctype 0 [] text with
  | none => .fault offset (.unfinished .doctype)
  | some (inside, rest) =>
    let after := offset + 2 + Utf8.length inside
    if startsWith "DOCTYPE".toList inside then
      if (inside.drop 7).all isTagSpace then .fault after .emptyDoctype
      else .event after .remark ⟨rest, after, opened, false⟩
    else .fault after (.unfinished .doctype)

/-- Read behind `<!`; the offset is that of the exclamation mark. -/
def readBang (opened : List (List Char)) (offset : Nat) (text : List Char) : Reading :=
  match text with
  | [] => .fault offset (.unfinished .bang)
  | '-' :: rest => readComment opened offset rest
  | '[' :: rest => readData opened offset rest
  | c :: _ =>
    if c = 'D' ∨ c = 'd' then readDoctype opened offset text
    else .fault offset (.strangeBang (Utf8.leadByte c))

/-- Drop white space at the end, unless there is nothing else. -/
def trimName (content : List Char) : List Char :=
  if content.all isTagSpace then content
  else (content.reverse.dropWhile isTagSpace).reverse

/-- Read behind `</`; the offset is that of the slash. The end of the document
may stand for the closing bracket. A fault is placed before the tag's content,
counted from where reading has come to. -/
def readEnd (opened : List (List Char)) (offset : Nat) (text : List Char) : Reading :=
  let content := text.takeWhile (· != '>')
  let behind := text.dropWhile (· != '>')
  let closed := if behind.isEmpty then 0 else 1
  let after := offset + 1 + Utf8.length content + closed
  match opened with
  | [] => .fault (offset + closed) (.mismatch [] content)
  | expected :: outer =>
    if trimName content = expected then .event after .stop ⟨behind.drop 1, after, outer, false⟩
    else .fault (offset + closed) (.mismatch expected (trimName content))

/-- Read behind `<?`; the offset is that of the question mark. The end of the
document may stand for the closing bracket. -/
def readInstruction (opened : List (List Char)) (offset : Nat) (text : List Char) : Reading :=
  let content := text.takeWhile (· != '>')
  let behind := text.dropWhile (· != '>')
  let closed := if behind.isEmpty then 0 else 1
  let after := offset + 1 + Utf8.length content + closed
  if 2 ≤ content.length ∧ content.getLast? = some '?' then
    let event := match content with
      | 'x' :: 'm' :: 'l' :: space :: rest =>
        if isTagSpace space then .declaration (space :: rest.dropLast) else .remark
      | _ => MarkupEvent.remark
    .event after event ⟨behind.drop 1, after, opened, false⟩
  else .fault (offset + closed) (.unfinished .instruction)

/-- Read a start tag behind its bracket. A slash at its end closes the element
and belongs neither to the name nor to the attributes. -/
def readStart (opened : List (List Char)) (offset : Nat) (text : List Char) : Reading :=
  match splitTag none [] text with
  | none => .fault offset (.unfinished .element)
  | some (content, rest) =>
    let after := offset + Utf8.length content + 1
    let closing := content.getLast? == some '/'
    let tag := Tag.ofContent (if closing then content.dropLast else content)
    .event after (.start tag) ⟨rest, after, tag.name :: opened, closing⟩

/-- Read behind an opening angle bracket. A bracket that ends the document is
passed over. -/
def readMarkup (opened : List (List Char)) (offset : Nat) (text : List Char) : Reading :=
  match text with
  | [] => .finished offset
  | '!' :: rest => readBang opened offset rest
  | '/' :: rest => readEnd opened offset rest
  | '?' :: rest => readInstruction opened offset rest
  | _ => readStart opened offset text

/-- Read one event. The place of a run of text is behind it, or before its last
byte if the document ends with it. -/
def next (cursor : Cursor) : Reading :=
  if cursor.closing then
    .event cursor.offset .stop ⟨cursor.rest, cursor.offset, cursor.opened.tail, false⟩
  else match cursor.rest with
    | [] => .finished cursor.offset
    | '<' :: rest => readMarkup cursor.opened (cursor.offset + 1) rest
    | first :: more =>
      let run := first :: more.takeWhile (· != '<')
      let behind := more.dropWhile (· != '<')
      let after := cursor.offset + Utf8.length run
      .event (if behind.isEmpty then after - 1 else after) (.text run)
        ⟨behind, after, cursor.opened, false⟩

end Cursor

/-! ## Every event leaves less to read -/

namespace Reading

/-- A reading that leaves less than `bound` characters. -/
def Shorter (bound : Nat) : Reading → Prop
  | event _ _ after => after.rest.length < bound
  | _ => True

/-- A reading that leaves less than one bound leaves less than a greater one. -/
theorem Shorter.mono {least most : Nat} {reading : Reading} (h : reading.Shorter least)
    (le : least ≤ most) : reading.Shorter most := by
  cases reading with
  | event _ _ after => exact Nat.lt_of_lt_of_le h le
  | finished _ => trivial
  | fault _ _ => trivial

end Reading

namespace Cursor

/-- What stands behind a mark is no longer than the text. -/
theorem splitAtMark_rest_le {mark before text inside rest : List Char}
    (h : splitAtMark mark before text = some (inside, rest)) : rest.length ≤ text.length := by
  induction text generalizing before with
  | nil => simp [splitAtMark] at h
  | cons c text ih =>
    unfold splitAtMark at h
    split at h
    · simp only [Option.some.injEq, Prod.mk.injEq] at h
      rw [← h.2, List.length_drop]
      omega
    · have := ih h
      simp only [List.length_cons]
      omega

/-- What stands behind a tag is no longer than the text. -/
theorem splitTag_rest_le {quote : Option Char} {before text inside rest : List Char}
    (h : splitTag quote before text = some (inside, rest)) : rest.length ≤ text.length := by
  induction text generalizing quote before with
  | nil => simp [splitTag] at h
  | cons c text ih =>
    unfold splitTag at h
    simp only [List.length_cons]
    split at h
    · have := ih h
      omega
    · split at h
      · simp only [Option.some.injEq, Prod.mk.injEq] at h
        rw [← h.2]
        omega
      · have := ih h
        omega

/-- What stands behind a document type is no longer than the text. -/
theorem splitDoctype_rest_le {depth : Nat} {before text inside rest : List Char}
    (h : splitDoctype depth before text = some (inside, rest)) : rest.length ≤ text.length := by
  induction text generalizing depth before with
  | nil => simp [splitDoctype] at h
  | cons c text ih =>
    unfold splitDoctype at h
    simp only [List.length_cons]
    split at h
    · split at h
      · simp only [Option.some.injEq, Prod.mk.injEq] at h
        rw [← h.2]
        omega
      · have := ih h
        omega
    · have := ih h
      omega

/-- A comment leaves no more than the text it is read from. -/
theorem readComment_shorter (opened : List (List Char)) (offset : Nat) (text : List Char) :
    (readComment opened offset text).Shorter (text.length + 1) := by
  unfold readComment
  split
  · trivial
  · split
    · trivial
    next h =>
      have := splitAtMark_rest_le h
      split <;> simp only [Reading.Shorter, List.length_cons] <;> omega

/-- Character data leave no more than the text they are read from. -/
theorem readData_shorter (opened : List (List Char)) (offset : Nat) (text : List Char) :
    (readData opened offset text).Shorter (text.length + 1) := by
  unfold readData
  split
  · trivial
  next h =>
    have := splitAtMark_rest_le h
    split <;> simp only [Reading.Shorter] <;> omega

/-- A document type leaves no more than the text it is read from. -/
theorem readDoctype_shorter (opened : List (List Char)) (offset : Nat) (text : List Char) :
    (readDoctype opened offset text).Shorter (text.length + 1) := by
  unfold readDoctype
  split
  · trivial
  next h =>
    have := splitDoctype_rest_le h
    dsimp only
    split
    · split <;> simp only [Reading.Shorter] <;> omega
    · trivial

/-- No construct behind an exclamation mark leaves more than its text. -/
theorem readBang_shorter (opened : List (List Char)) (offset : Nat) (text : List Char) :
    (readBang opened offset text).Shorter (text.length + 1) := by
  unfold readBang
  split
  · trivial
  · exact (readComment_shorter opened offset _).mono (Nat.le_succ _)
  · exact (readData_shorter opened offset _).mono (Nat.le_succ _)
  · split
    · exact readDoctype_shorter opened offset _
    · trivial

/-- What stands behind the first character that fails a test is no longer than the text. -/
theorem length_drop_dropWhile_le (p : Char → Bool) (text : List Char) :
    ((text.dropWhile p).drop 1).length ≤ text.length := by
  have := Tag.length_dropWhile_le p text
  rw [List.length_drop]
  omega

/-- An end tag leaves no more than the text it is read from. -/
theorem readEnd_shorter (opened : List (List Char)) (offset : Nat) (text : List Char) :
    (readEnd opened offset text).Shorter (text.length + 1) := by
  have := length_drop_dropWhile_le (· != '>') text
  unfold readEnd
  dsimp only
  split
  · trivial
  · split
    · simp only [Reading.Shorter]
      omega
    · trivial

/-- An instruction leaves no more than the text it is read from. -/
theorem readInstruction_shorter (opened : List (List Char)) (offset : Nat) (text : List Char) :
    (readInstruction opened offset text).Shorter (text.length + 1) := by
  have := length_drop_dropWhile_le (· != '>') text
  unfold readInstruction
  dsimp only
  split
  · simp only [Reading.Shorter]
    omega
  · trivial

/-- A start tag leaves no more than the text it is read from. -/
theorem readStart_shorter (opened : List (List Char)) (offset : Nat) (text : List Char) :
    (readStart opened offset text).Shorter (text.length + 1) := by
  unfold readStart
  split
  · trivial
  next h =>
    have := splitTag_rest_le h
    simp only [Reading.Shorter]
    omega

/-- No markup leaves more than the text behind its opening bracket. -/
theorem readMarkup_shorter (opened : List (List Char)) (offset : Nat) (text : List Char) :
    (readMarkup opened offset text).Shorter (text.length + 1) := by
  unfold readMarkup
  split
  · trivial
  · exact (readBang_shorter opened offset _).mono (Nat.le_succ _)
  · exact (readEnd_shorter opened offset _).mono (Nat.le_succ _)
  · exact (readInstruction_shorter opened offset _).mono (Nat.le_succ _)
  · exact readStart_shorter opened offset _

/-- Every event makes the cursor smaller. -/
theorem next_size_lt {cursor after : Cursor} {offset : Nat} {event : MarkupEvent}
    (h : cursor.next = .event offset event after) : after.size < cursor.size := by
  obtain ⟨rest, reached, opened, closing⟩ := cursor
  unfold next at h
  dsimp only at h
  have bit : after.closing.toNat ≤ 1 := Bool.toNat_le after.closing
  simp only [size]
  split at h
  next due =>
    injection h with _ _ h
    subst h
    simp [due]
  next due =>
    split at h
    · cases h
    next more =>
      have := readMarkup_shorter opened (reached + 1) more
      rw [h] at this
      simp only [Reading.Shorter] at this
      simp only [List.length_cons]
      omega
    next first more _ =>
      injection h with _ _ h
      have := Tag.length_dropWhile_le (· != '<') more
      subst h
      simp only [List.length_cons, Bool.toNat_false]
      omega

/-- Pass every event with its place through a function, from a first state to
the state at the end of the document, which comes with its offset. -/
def fold (step : σ → Nat → MarkupEvent → Except ε σ) (fault : Nat → MarkupFault → ε)
    (state : σ) (cursor : Cursor) : Except ε (Nat × σ) :=
  match _read : cursor.next with
  | .finished offset => .ok (offset, state)
  | .fault offset reason => .error (fault offset reason)
  | .event offset event after =>
    match step state offset event with
    | .error reason => .error reason
    | .ok state => fold step fault state after
termination_by cursor.size
decreasing_by exact next_size_lt _read

end Cursor

end MessageCatalog
