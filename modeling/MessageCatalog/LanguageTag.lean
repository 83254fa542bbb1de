import MessageCatalog.Utf8

/-!
# Language tags

The grammar of locale identifiers: a language, then script, region and
variants, then extensions that one letter opens. An underscore separates as a
hyphen does. Subtags are read as they are written; only what is kept or
compared has the letter case of its kind. Of a tag, language and region are
kept. The extensions are read by a small automaton that takes the subtags
one by one, so a tag is accepted or refused in one pass.
-/

namespace MessageCatalog

/-- The part of a language tag that selects plural rules. -/
structure LanguageTag where
  /-- Two or three small letters. -/
  language : String
  /-- Two capital letters or three digits. -/
  region : Option String
  deriving DecidableEq

namespace LanguageTag

/-- Why a text is no language tag. -/
inductive Fault where
  /-- The first subtag is no language. -/
  | language
  /-- A subtag fits nowhere, or a variant is repeated. -/
  | subtag
  /-- An extension is malformed. -/
  | extension
  /-- Two extensions have the same letter. -/
  | duplicate
  deriving DecidableEq

/-- The sentence that tells a fault. -/
def Fault.message : Fault → String
  | language => "The given language subtag is invalid"
  | subtag => "Invalid subtag"
  | extension => "Invalid extension"
  | duplicate => "Duplicated extension"

/-- The subtags as they are written; empty ones count. -/
def subtags (tag : String) : List (List Char) :=
  (tag.toList.map fun c => if c = '_' then '-' else c).splitOn '-'

/-- A subtag in small letters. -/
def lowered (subtag : List Char) : List Char := subtag.map Char.toLower

/-- A subtag in capital letters. -/
def raised (subtag : List Char) : List Char := subtag.map Char.toUpper

/-- Letters only, their number within bounds. -/
def isAlpha (least most : Nat) (subtag : List Char) : Bool :=
  least ≤ subtag.length && subtag.length ≤ most && subtag.all Char.isAlpha

/-- Letters and digits only, their number within bounds. -/
def isAlphanum (least most : Nat) (subtag : List Char) : Bool :=
  least ≤ subtag.length && subtag.length ≤ most && subtag.all Char.isAlphanum

/-- A language: two or three letters. -/
def isLanguage (subtag : List Char) : Bool := isAlpha 2 3 subtag

/-- A script: four letters. -/
def isScript (subtag : List Char) : Bool := isAlpha 4 4 subtag

/-- A region: two letters or three digits. -/
def isRegion (subtag : List Char) : Bool :=
  isAlpha 2 2 subtag || (subtag.length == 3 && subtag.all Char.isDigit)

/-- A variant: five to eight characters, or four that start with a digit. -/
def isVariant (subtag : List Char) : Bool :=
  isAlphanum 5 8 subtag ||
    (isAlphanum 4 4 subtag && (subtag.head?.map Char.isDigit).getD false)

/-- An attribute or a value of an extension. -/
def isValue (subtag : List Char) : Bool := isAlphanum 3 8 subtag

/-- A key of the `u` extension: a letter behind a letter or digit. -/
def isKey : List Char → Bool
  | [a, b] => a.isAlphanum && b.isAlpha
  | _ => false

/-- A key of the `t` extension: a digit behind a letter. -/
def isField : List Char → Bool
  | [a, b] => a.isAlpha && b.isDigit
  | _ => false

/-- The next part that an identifier may still have. -/
inductive Slot where
  | script
  | region
  | variant
  deriving DecidableEq

/-- The slot after a subtag of an identifier, and its variants so far, in small
letters; nothing if the subtag fits no open slot. -/
def Slot.take? (slot : Slot) (variants : List (List Char)) (subtag : List Char) :
    Except Fault (Option (Slot × List (List Char))) :=
  if slot = .script ∧ isScript subtag then .ok (some (.region, variants))
  else if slot ≠ .variant ∧ isRegion subtag then .ok (some (.variant, variants))
  else if isVariant subtag then
    let variant := lowered subtag
    if variant ∈ variants then .error .subtag
    else .ok (some (.variant, variant :: variants))
  else .ok none

/-- Where among the extensions the next subtag stands. -/
inductive Part where
  /-- The attributes of `u`; whether one was read. -/
  | attributes (found : Bool)
  /-- A key of `u` or a value of it was read. -/
  | keyword
  /-- Right behind the letter `t`. -/
  | transform
  /-- In the identifier that `t` may start with. -/
  | identifier (slot : Slot) (variants : List (List Char))
  /-- Between the fields of `t`. -/
  | fields
  /-- A key of `t` was read, its first value is due. -/
  | fieldKey
  /-- A value of `t` was read. -/
  | fieldValue
  /-- In private use, which runs to the end. -/
  | privateUse
  /-- In an extension of another letter. -/
  | other
  deriving DecidableEq

namespace Part

/-- Start or end the list of fields. -/
def field? (subtag : List Char) : Option Part :=
  if isField subtag then some fieldKey else none

/-- The part after a subtag; nothing if the subtag does not belong to the
extension. -/
def take? (part : Part) (subtag : List Char) : Except Fault (Option Part) :=
  match part with
  | attributes found =>
    if isValue subtag then .ok (some (attributes true))
    else if Utf8.length subtag = 2 then
      if isKey subtag then .ok (some keyword) else .error .extension
    else if found then .ok none else .error .extension
  | keyword =>
    if Utf8.length subtag = 2 then
      if isKey subtag then .ok (some keyword) else .error .extension
    else if isValue subtag then .ok (some keyword)
    else .ok none
  | transform =>
    if isLanguage subtag then .ok (some (identifier .script []))
    else .ok (field? subtag)
  | identifier slot variants =>
    if Utf8.length subtag = 1 then .ok none
    else match slot.take? variants subtag with
      | .error fault => .error fault
      | .ok (some (slot, variants)) => .ok (some (identifier slot variants))
      | .ok none => .ok (field? subtag)
  | fields => .ok (field? subtag)
  | fieldKey => if isValue subtag then .ok (some fieldValue) else .error .extension
  | fieldValue => if isValue subtag then .ok (some fieldValue) else .ok (field? subtag)
  | privateUse => if isAlphanum 1 8 subtag then .ok (some privateUse) else .error .extension
  | other =>
    if 2 ≤ Utf8.length subtag ∧ Utf8.length subtag ≤ 8 then .ok (some other) else .ok none

/-- Whether an extension may end here. -/
def isComplete : Part → Bool
  | attributes found => found
  | fieldKey => false
  | _ => true

/-- The part that the letter of an extension starts. -/
def ofLetter : Char → Part
  | 'u' => attributes false
  | 't' => transform
  | 'x' => privateUse
  | _ => other

end Part

/-- The extensions read so far. -/
structure Extensions where
  /-- The part that is being read. -/
  part : Part
  /-- The small letters of all extensions, the last one first. -/
  letters : List Char

namespace Extensions

/-- Open an extension; the first character of the subtag is its letter. -/
def start (letters : List Char) : List Char → Except Fault Extensions
  | [] => .error .extension
  | first :: _ =>
    if first.isAlpha then
      let letter := first.toLower
      if letter ∈ letters then .error .duplicate
      else .ok ⟨Part.ofLetter letter, letter :: letters⟩
    else .error .extension

/-- Take one more subtag. -/
def take (extensions : Extensions) (subtag : List Char) : Except Fault Extensions :=
  match extensions.part.take? subtag with
  | .error fault => .error fault
  | .ok (some part) => .ok ⟨part, extensions.letters⟩
  | .ok none => start extensions.letters subtag

/-- Check the subtags behind the identifier. -/
def check : List (List Char) → Except Fault Unit
  | [] => .ok ()
  | first :: rest => do
    let extensions ← rest.foldlM take (← start [] first)
    if extensions.part.isComplete then .ok () else .error .extension

end Extensions

/-- Read script, region and variants; return the region, in capital letters, and the
subtags left. -/
def readIdentifier (slot : Slot) (region : Option (List Char)) (variants : List (List Char)) :
    List (List Char) → Except Fault (Option (List Char) × List (List Char))
  | [] => .ok (region, [])
  | subtag :: rest =>
    if Utf8.length subtag = 1 then .ok (region, subtag :: rest)
    else match slot.take? variants subtag with
      | .error fault => .error fault
      | .ok none => .error .subtag
      | .ok (some (next, variants)) =>
        let region := if slot ≠ .variant ∧ isRegion subtag then some (raised subtag) else region
        readIdentifier next region variants rest

/-- Read a language tag from its subtags. -/
def ofSubtags : List (List Char) → Except Fault LanguageTag
  | [] => .error .language
  | first :: rest => do
    if isLanguage first then
      let (region, extensions) ← readIdentifier .script none [] rest
      Extensions.check extensions
      .ok ⟨String.ofList (lowered first), region.map String.ofList⟩
    else .error .language

/-- Read a language tag. -/
def parse (tag : String) : Except Fault LanguageTag := ofSubtags (subtags tag)

end LanguageTag

end MessageCatalog
