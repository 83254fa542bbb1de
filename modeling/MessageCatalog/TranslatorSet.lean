import MessageCatalog.Translator

/-!
# Sets of translators

The catalogs of an application, one for every language, of which one may be
active. Language codes are compared without regard to letter case and to
which of hyphen and underscore they use. With nothing active the source text
is shown.
-/

namespace MessageCatalog

/-- A language code in the form in which codes are compared. -/
def normalizeCode (code : String) : String :=
  String.ofList (code.toList.map fun c => if c = '-' then '_' else c.toLower)

/-- The tally of a language. -/
structure LanguageTally where
  /-- The language as its catalog spells it. -/
  language : String
  /-- The numbers of its messages. -/
  tally : Tally

/-- Translators for several languages. -/
structure TranslatorSet where
  /-- The translators in the order in which they came. -/
  translators : List Translator
  /-- The position of the active one. -/
  active : Option Nat

namespace TranslatorSet

/-- No translators. -/
def empty : TranslatorSet := ⟨[], none⟩

/-- The position of the translator for a language code. -/
def position? (set : TranslatorSet) (code : String) : Option Nat :=
  set.translators.findIdx? fun translator =>
    translator.language.any fun language => normalizeCode language == normalizeCode code

/-- The translator for a language code. -/
def translator? (set : TranslatorSet) (code : String) : Option Translator :=
  (set.position? code).bind fun position => set.translators[position]?

/-- Add a translator behind the others. Its catalog must name a language that the
set does not have. -/
def insert (set : TranslatorSet) (translator : Translator) : Except CatalogError TranslatorSet :=
  match translator.language with
  | none => .error .untagged
  | some language =>
    match set.position? language with
    | some _ => .error (.duplicateLanguage language)
    | none => .ok { set with translators := set.translators ++ [translator] }

/-- The languages in the order of the translators. -/
def languages (set : TranslatorSet) : List String :=
  set.translators.map (·.language.getD "")

/-- The translator that is active. -/
def activeTranslator? (set : TranslatorSet) : Option Translator :=
  set.active.bind fun position => set.translators[position]?

/-- The language that is active. -/
def activeLanguage? (set : TranslatorSet) : Option String :=
  set.activeTranslator?.bind Translator.language

/-- Make the language of a code the active one; nothing if the set does not have
it. -/
def activate? (set : TranslatorSet) (code : String) : Option TranslatorSet :=
  (set.position? code).map fun position => { set with active := some position }

/-- Go back to showing source texts. -/
def deactivate (set : TranslatorSet) : TranslatorSet := { set with active := none }

/-- What the active language shows for a source text. -/
def translate (set : TranslatorSet) (context source : String) (comment : Option String) :
    String :=
  match set.activeTranslator? with
  | some translator => translator.lookup context source comment
  | none => source

/-- What the active language shows for a source text and a count. -/
def translatePlural (set : TranslatorSet) (context source : String) (count : Nat) : String :=
  match set.activeTranslator? with
  | some translator => translator.translatePlural context source count
  | none => substituteCount source count

/-- The tallies of all languages. -/
def tallies (set : TranslatorSet) : List LanguageTally :=
  set.translators.map fun translator =>
    ⟨translator.language.getD "", translator.catalog.tally⟩

end TranslatorSet

end MessageCatalog
