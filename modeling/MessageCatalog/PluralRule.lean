import MessageCatalog.Catalog
import MessageCatalog.CatalogError

/-!
# Plural rules

A rule assigns one form of a plural translation to every count. Forms are
numbered in the order in which catalogs store them. A catalog takes its plural
rule from its language. Seeding makes a catalog for another language out of
one: the same messages, their live translations cleared for the plural forms of
that language.
-/

namespace MessageCatalog

/-- How a language selects plural forms. -/
inductive PluralRule where
  /-- One form for every count. -/
  | single
  /-- One, and everything else. -/
  | oneOther
  /-- Zero and one together, and everything else. -/
  | zeroOneOther
  /-- Counts that end in one; in two to four; everything else; eleven to
  fourteen belong to the last group. -/
  | slavic
  /-- One; counts that end in two to four, without twelve to fourteen;
  everything else. -/
  | polish
  /-- One; two to four; everything else. -/
  | czech
  deriving DecidableEq

namespace PluralRule

/-- The name of a rule. -/
def label : PluralRule → String
  | single => "Single"
  | oneOther => "OneOther"
  | zeroOneOther => "ZeroOneOther"
  | slavic => "Slavic"
  | polish => "Polish"
  | czech => "Czech"

/-- The languages that have a rule other than `oneOther`. -/
def table : List (PluralRule × List String) :=
  [(single, ["ja", "zh", "ko", "vi", "th", "id", "ms", "lo", "km", "my", "ka", "bo", "dz"]),
   (zeroOneOther, ["fr", "fil", "tl", "ln", "ti", "wa", "ak", "am", "oc"]),
   (slavic, ["ru", "uk", "be", "sr", "hr", "bs", "sh"]),
   (polish, ["pl"]),
   (czech, ["cs", "sk"])]

/-- The rule of a language; Brazilian Portuguese differs from European. -/
def ofTag (tag : LanguageTag) : PluralRule :=
  if tag.language = "pt" ∧ tag.region = some "BR" then zeroOneOther
  else ((table.find? fun entry => entry.2.contains tag.language).map Prod.fst).getD oneOther

/-- The rule of the language that a tag names. -/
def ofLanguage (tag : String) : Except LanguageTag.Fault PluralRule :=
  (LanguageTag.parse tag).map ofTag

/-- The number of forms of a complete translation. -/
def formCount : PluralRule → Nat
  | single => 1
  | oneOther | zeroOneOther => 2
  | slavic | polish | czech => 3

/-- Whether a count ends in two, three or four without ending in twelve,
thirteen or fourteen. -/
def isPaucal (count : Nat) : Prop :=
  2 ≤ count % 10 ∧ count % 10 ≤ 4 ∧ ¬(12 ≤ count % 100 ∧ count % 100 ≤ 14)

instance (count : Nat) : Decidable (isPaucal count) := by
  unfold isPaucal; infer_instance

/-- The form that a count takes. -/
def formIndex (rule : PluralRule) (count : Nat) : Nat :=
  match rule with
  | single => 0
  | oneOther => if count = 1 then 0 else 1
  | zeroOneOther => if count ≤ 1 then 0 else 1
  | slavic =>
    if count % 10 = 1 ∧ count % 100 ≠ 11 then 0
    else if isPaucal count then 1 else 2
  | polish => if count = 1 then 0 else if isPaucal count then 1 else 2
  | czech => if count = 1 then 0 else if 2 ≤ count ∧ count ≤ 4 then 1 else 2

end PluralRule

/-! ## The language of a catalog -/

/-- The plural rule of the language that a tag names. -/
def pluralRuleOf (tag : String) : Except CatalogError PluralRule :=
  match PluralRule.ofLanguage tag with
  | .ok rule => .ok rule
  | .error fault => .error (.invalidLanguage tag fault)

namespace Catalog

/-- The plural rule of a catalog; one without a language has two forms. -/
def pluralRule (catalog : Catalog) : Except CatalogError PluralRule :=
  match catalog.language with
  | some tag => pluralRuleOf tag
  | none => .ok .oneOther

/-- A catalog takes the plural rule of its language. -/
theorem pluralRule_of_language {catalog : Catalog} {tag : String} {rule : PluralRule}
    (tagged : catalog.language = some tag) (ruled : PluralRule.ofLanguage tag = .ok rule) :
    catalog.pluralRule = .ok rule := by
  rw [pluralRule, tagged]
  simp only [pluralRuleOf, ruled]

/-- The catalog with its live translations cleared for a number of plural forms. -/
def cleared (formCount : Nat) (catalog : Catalog) : Catalog :=
  { catalog with
    contexts := catalog.contexts.map fun context =>
      { context with messages := context.messages.map (Message.seed formCount) } }

/-- A catalog to start the translation to another language from. -/
def seeded (catalog : Catalog) (tag : String) : Except CatalogError Catalog :=
  match pluralRuleOf tag with
  | .ok rule => .ok { catalog.cleared rule.formCount with language := some tag }
  | .error fault => .error fault

end Catalog

end MessageCatalog
