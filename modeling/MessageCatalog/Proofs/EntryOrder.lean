import Mathlib.Data.List.Nodup
import MessageCatalog.CatalogReview
import MessageCatalog.Proofs.TranslatorAnswers

/-!
# Layout of a catalog

What a translator answers does not hang on how the file is laid out: in which
order contexts and messages stand, whether the messages of a context name stand
in one context or in several, and which dead messages stand between them. It
takes that no two live messages under a context name have the same source text
and comment. Then at most one message suits a lookup, and where it stands does not
matter.
-/

namespace MessageCatalog

/-! ## Searches in rearranged lists -/

section Search

variable {α : Type} {first second : List α}

/-- A search that suits no two elements finds any that it suits. -/
theorem find?_eq_some_iff_of_unique {suits : α → Bool}
    (unique : ∀ a ∈ first, ∀ b ∈ first, suits a = true → suits b = true → a = b) {found : α} :
    first.find? suits = some found ↔ found ∈ first ∧ suits found = true := by
  constructor
  · intro met
    exact ⟨List.mem_of_find?_eq_some met, List.find?_some met⟩
  · rintro ⟨member, own⟩
    cases met : first.find? suits with
    | none => exact absurd own (List.find?_eq_none.mp met found member)
    | some other =>
      rw [unique found member other (List.mem_of_find?_eq_some met) own (List.find?_some met)]

/-- It finds the same wherever the elements stand. -/
theorem find?_eq_of_perm (same : first.Perm second) {suits : α → Bool}
    (unique : ∀ a ∈ first, ∀ b ∈ first, suits a = true → suits b = true → a = b) :
    first.find? suits = second.find? suits := by
  have uniqueToo : ∀ a ∈ second, ∀ b ∈ second, suits a = true → suits b = true → a = b :=
    fun a member b also => unique a (same.mem_iff.mpr member) b (same.mem_iff.mpr also)
  refine Option.ext fun found => ?_
  rw [find?_eq_some_iff_of_unique unique, find?_eq_some_iff_of_unique uniqueToo, same.mem_iff]

end Search

namespace Catalog

variable {first second : Catalog}

/-- Every live message with the name of its context, in file order. -/
def namedLive (catalog : Catalog) : List (String × Message) :=
  (catalog.entries.filter (·.2.isLive)).map fun entry => (entry.1.name, entry.2)

/-- No two live messages under a context name have the same source text and comment;
an absent comment counts as an empty one. -/
def Unambiguous (catalog : Catalog) : Prop :=
  (catalog.namedLive.map fun entry => (entry.1, entry.2.key)).Nodup

instance (catalog : Catalog) : Decidable catalog.Unambiguous :=
  inferInstanceAs (Decidable (List.Nodup _))

/-- The live messages of a catalog, with the names that lookups find them by. -/
theorem liveEntries_eq_map_namedLive (catalog : Catalog) :
    catalog.liveEntries =
      catalog.namedLive.map fun entry => ((entry.1, entry.2.source), entry.2) := by
  rw [namedLive, entries, List.filter_flatMap, List.map_map, List.map_flatMap, liveEntries]
  refine List.flatMap_congr fun context _ => ?_
  rw [List.filter_map, List.map_map]
  rfl

/-- Only one live message suits a lookup. -/
theorem eq_of_isAnswer (distinct : first.Unambiguous) {includeUnfinished : Bool}
    {context source comment : String} {entry other : (String × String) × Message}
    (member : entry ∈ first.liveEntries) (also : other ∈ first.liveEntries)
    (suits : isAnswer includeUnfinished context source comment entry = true)
    (suitsToo : isAnswer includeUnfinished context source comment other = true) :
    entry = other := by
  rw [liveEntries_eq_map_namedLive] at member also
  obtain ⟨named, inside, rfl⟩ := List.mem_map.mp member
  obtain ⟨named', inside', rfl⟩ := List.mem_map.mp also
  simp only [isAnswer, Message.suits, Bool.and_eq_true, beq_iff_eq, Prod.mk.injEq] at suits suitsToo
  obtain ⟨⟨hn, hs⟩, hc, _⟩ := suits
  obtain ⟨⟨hn', hs'⟩, hc', _⟩ := suitsToo
  have same : (named.1, named.2.key) = (named'.1, named'.2.key) := by
    rw [Message.key, Message.key, hn, hs, hc, hn', hs', hc']
  rw [List.inj_on_of_nodup_map distinct inside inside' same]

/-- The same messages answer in catalogs with the same live messages. -/
theorem select?_eq_of_perm (distinct : first.Unambiguous)
    (same : first.namedLive.Perm second.namedLive) : first.select? = second.select? := by
  have entries : first.liveEntries.Perm second.liveEntries := by
    rw [liveEntries_eq_map_namedLive, liveEntries_eq_map_namedLive]
    exact same.map _
  have met (includeUnfinished : Bool) (context source comment : String) :
      first.liveEntries.find? (isAnswer includeUnfinished context source comment) =
        second.liveEntries.find? (isAnswer includeUnfinished context source comment) :=
    find?_eq_of_perm entries fun _ member _ also => eq_of_isAnswer distinct member also
  funext includeUnfinished context source comment
  simp only [select?, scan?_eq_find?_liveEntries, met]

end Catalog

namespace Translator

/-- Answers depend on the live messages only, not on the layout of the file.
Catalogs of one language with the same live messages under the same context names,
none of which has the source text and the comment of another, have a translator
or fail to for the same reason, and their translators answer the same. -/
theorem answers_independent_of_layout {first second : Catalog}
    (language : first.language = second.language)
    (same : first.namedLive.Perm second.namedLive) (distinct : first.Unambiguous)
    (initially : Bool) :
    (ofCatalog first initially).map answers = (ofCatalog second initially).map answers := by
  have ruled : first.pluralRule = second.pluralRule := by
    rw [Catalog.pluralRule, Catalog.pluralRule, language]
  rw [map_answers_ofCatalog, map_answers_ofCatalog, ruled, Catalog.select?_eq_of_perm distinct same]

/-- A text in one context, and behind it the same text with a comment. -/
def inOneContext : Catalog :=
  ⟨"2.0", some "pl", none,
    [⟨"A", [⟨[], "x", none, none, none, none, .singular "y", .finished⟩,
      ⟨[], "x", some "c", none, none, none, .plural ["1", "", "5"], .unfinished⟩]⟩]⟩

/-- The same messages the other way round, in two contexts of one name, with a
message between them that is no longer used. -/
def inTwoContexts : Catalog :=
  ⟨"2.1", some "pl", none,
    [⟨"A", [⟨[], "x", some "c", none, none, none, .plural ["1", "", "5"], .unfinished⟩,
      ⟨[], "x", none, none, none, none, .singular "w", .obsolete⟩]⟩,
     ⟨"A", [⟨[], "x", none, none, none, none, .singular "y", .finished⟩]⟩]⟩

/-- Both are looked up in alike. -/
theorem one_and_two_contexts_answer_alike :
    inOneContext.language = inTwoContexts.language ∧
      inOneContext.namedLive.Perm inTwoContexts.namedLive ∧ inOneContext.Unambiguous ∧
      (ofCatalog inOneContext true).map answers = (ofCatalog inTwoContexts true).map answers := by
  have language : inOneContext.language = inTwoContexts.language := rfl
  have same : inOneContext.namedLive.Perm inTwoContexts.namedLive := by decide
  have distinct : inOneContext.Unambiguous := by decide
  exact ⟨language, same, distinct, answers_independent_of_layout language same distinct true⟩

end Translator

end MessageCatalog
