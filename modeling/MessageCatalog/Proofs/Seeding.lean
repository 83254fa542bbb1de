import MessageCatalog.CatalogReview
import MessageCatalog.Proofs.TranslatorAnswers

/-!
# Seeding

A catalog that was seeded for a language has nothing translated and everything it
needs to be translated. A translator of it shows source texts only. A review finds
in it what seeding cannot mend, the messages that occur twice, and nothing else.
-/

namespace MessageCatalog

namespace Translation

variable {translation : Translation} {text : String}

/-- The text used without a count is one of the texts. -/
theorem mem_texts_of_text? (found : translation.text? = some text) :
    text ∈ translation.texts := List.mem_of_head? found

/-- The form used for a count is one of the texts. -/
theorem mem_texts_of_formFor? {rule : PluralRule} {count : Nat}
    (found : translation.formFor? rule count = some text) : text ∈ translation.texts := by
  cases translation with
  | singular only =>
    have same : only = text := Option.some.inj found
    rw [same]
    exact List.mem_singleton_self text
  | plural forms => exact List.mem_of_getElem? found

/-- The texts of a blank translation are empty. -/
theorem eq_empty_of_mem_blank {formCount : Nat}
    (member : text ∈ (translation.blank formCount).texts) : text = "" := by
  cases translation with
  | singular only => exact List.mem_singleton.mp member
  | plural forms => exact List.eq_of_mem_replicate member

end Translation

namespace Answers

/-- Where a text that is found is empty, the source text is shown. -/
theorem orSource_of_empty {source : String} {found : Option String}
    (empty : ∀ text, found = some text → text = "") :
    Translator.orSource source found = source := by
  rw [Translator.orSource_eq_shown]
  cases found with
  | none => rfl
  | some text => rw [Translator.shown, if_pos (empty text rfl)]

/-- Nothing is translated where all messages that answer are empty. -/
theorem ofSelection_eq_untranslated {rule : PluralRule}
    {select : Bool → String → String → Option String → Option Message}
    (empty : ∀ includeUnfinished context source comment message,
      select includeUnfinished context source comment = some message →
        ∀ text ∈ message.translation.texts, text = "") :
    ofSelection rule select = untranslated := by
  have without_count (includeUnfinished : Bool) (context source : String)
      (comment : Option String) :
      Translator.orSource source ((select includeUnfinished context source comment).bind
        (·.translation.text?)) = source := by
    refine orSource_of_empty fun text found => ?_
    obtain ⟨message, selected, first⟩ := Option.bind_eq_some_iff.mp found
    exact empty _ _ _ _ message selected text (Translation.mem_texts_of_text? first)
  have with_count (includeUnfinished : Bool) (context source : String)
      (comment : Option String) (count : Nat) :
      Translator.orSource source ((select includeUnfinished context source comment).bind
        (·.translation.formFor? rule count)) = source := by
    refine orSource_of_empty fun text found => ?_
    obtain ⟨message, selected, form⟩ := Option.bind_eq_some_iff.mp found
    exact empty _ _ _ _ message selected text (Translation.mem_texts_of_formFor? form)
  unfold ofSelection untranslated
  simp only [without_count, with_count]

end Answers

namespace Message

variable {formCount : Nat} {message : Message}

/-- Seeding leaves a message as live as it was. -/
theorem isLive_seed (formCount : Nat) (message : Message) :
    (message.seed formCount).isLive = message.isLive := by
  unfold seed
  split
  next live => rw [live]; rfl
  next => rfl

/-- Seeding leaves a message what tells it from others. -/
theorem key_seed (formCount : Nat) (message : Message) :
    (message.seed formCount).key = message.key := by
  unfold seed
  split <;> rfl

/-- The translation of a live message becomes blank. -/
theorem translation_seed (live : message.isLive) :
    (message.seed formCount).translation = message.translation.blank formCount := by
  rw [seed, if_pos live]

/-- A live message becomes unfinished. -/
theorem status_seed (live : message.isLive) : (message.seed formCount).status = .unfinished := by
  rw [seed, if_pos live]

/-- Nothing is wrong with a blank unfinished translation. -/
theorem translationProblem?_of_blank {checks : Checks} {blank : Message}
    {translation : Translation} (cleared : blank.translation = translation.blank formCount)
    (unfinished : blank.status = .unfinished) :
    blank.translationProblem? checks formCount = none := by
  rw [translationProblem?, cleared]
  cases translation with
  | singular text => simp [Translation.blank, unfinished]
  | plural forms => simp [Translation.blank]

/-- Empty texts have no markers that differ. -/
theorem mismatches_of_empty {source : String} {texts : List String}
    (empty : ∀ text ∈ texts, text = "") : PlaceMarker.mismatches source texts = [] := by
  have none : texts.filter (!·.isEmpty) = [] :=
    List.filter_eq_nil_iff.mpr fun text member => by simp [empty text member]
  rw [PlaceMarker.mismatches, none]
  rfl

/-- Of the problems of a message one may be that it occurs twice. -/
theorem filter_duplicate_problems (checks : Checks) (formCount : Nat)
    (seen : List (String × String)) (message : Message) :
    (message.problems checks formCount seen).filter (· == .duplicate) =
      if checks.duplicates && seen.contains message.key then [.duplicate] else [] := by
  have translation : (message.translationProblem? checks formCount).toList.filter
      (· == .duplicate) = [] := by
    unfold translationProblem?
    split <;> split <;> rfl
  have markers (numbers : List Nat) :
      (numbers.map Problem.placeMarker).filter (· == .duplicate) = [] := by
    refine List.filter_eq_nil_iff.mpr fun problem member => ?_
    obtain ⟨number, _, rfl⟩ := List.mem_map.mp member
    simp
  rw [problems, List.filter_append, List.filter_append, translation]
  split <;> split <;> simp [markers]

/-- The only problem that a live message keeps is that it occurs twice. -/
theorem problems_seed {checks : Checks} {seen : List (String × String)} (live : message.isLive) :
    (message.seed formCount).problems checks formCount seen =
      (message.problems checks formCount seen).filter (· == .duplicate) := by
  have unmarked : PlaceMarker.mismatches (message.seed formCount).source
      (message.seed formCount).translation.texts = [] := by
    rw [translation_seed live]
    exact mismatches_of_empty fun text member => Translation.eq_empty_of_mem_blank member
  rw [filter_duplicate_problems, problems, key_seed, unmarked,
    translationProblem?_of_blank (translation_seed live) (status_seed live)]
  simp

end Message

namespace Context

/-- The context with its live messages cleared. -/
def cleared (formCount : Nat) (context : Context) : Context :=
  { context with messages := context.messages.map (Message.seed formCount) }

/-- The live messages are the same ones, cleared. -/
theorem live_cleared (formCount : Nat) (context : Context) :
    (context.cleared formCount).live = context.live.map (Message.seed formCount) := by
  rw [live, cleared, List.filter_map, live]
  congr 1
  refine List.filter_congr fun message _ => ?_
  exact Message.isLive_seed formCount message

/-- Reviewing cleared messages finds those that occur twice. -/
theorem reviewFrom_seed {checks : Checks} {formCount : Nat} {name : String}
    {seen : List (String × String)} {messages : List Message}
    (live : ∀ message ∈ messages, message.isLive) :
    reviewFrom checks formCount name seen (messages.map (Message.seed formCount)) =
      (reviewFrom checks formCount name seen messages).filter (·.problem == .duplicate) := by
  induction messages generalizing seen with
  | nil => rfl
  | cons message rest ih =>
    have source : (message.seed formCount).source = message.source :=
      congrArg Prod.fst (Message.key_seed formCount message)
    rw [List.map_cons, reviewFrom, reviewFrom, List.filter_append, Message.key_seed, source,
      Message.problems_seed (live message List.mem_cons_self),
      ih fun other member => live other (List.mem_cons_of_mem _ member), List.filter_map]
    rfl

/-- Reviewing a cleared context finds the messages that occur twice. -/
theorem review_cleared (checks : Checks) (formCount : Nat) (context : Context) :
    (context.cleared formCount).review checks formCount =
      (context.review checks formCount).filter (·.problem == .duplicate) := by
  rw [review, live_cleared]
  exact reviewFrom_seed fun message member => (List.mem_filter.mp member).2

end Context

namespace Catalog

variable {catalog : Catalog} {tag : String}

/-- What seeding makes of a catalog for a language with a rule. -/
theorem seeded_of_rule {rule : PluralRule} (ruled : PluralRule.ofLanguage tag = .ok rule) :
    catalog.seeded tag = .ok { catalog.cleared rule.formCount with language := some tag } := by
  rw [seeded, pluralRuleOf, ruled]

/-- The contexts of a cleared catalog. -/
theorem contexts_cleared (formCount : Nat) (catalog : Catalog) :
    (catalog.cleared formCount).contexts = catalog.contexts.map (Context.cleared formCount) := rfl

/-- Live messages of a cleared catalog have empty texts only. -/
theorem eq_empty_of_cleared {formCount : Nat} {context : Context}
    (cleared : context ∈ (catalog.cleared formCount).contexts) {message : Message}
    (live : message ∈ context.live) {text : String} (member : text ∈ message.translation.texts) :
    text = "" := by
  rw [contexts_cleared] at cleared
  obtain ⟨original, _, rfl⟩ := List.mem_map.mp cleared
  rw [Context.live_cleared] at live
  obtain ⟨before, wasLive, rfl⟩ := List.mem_map.mp live
  rw [Message.translation_seed (List.mem_filter.mp wasLive).2] at member
  exact Translation.eq_empty_of_mem_blank member

/-- Reviewing a cleared catalog finds the messages that occur twice. -/
theorem flatMap_review_cleared (checks : Checks) (formCount : Nat) (catalog : Catalog) :
    (catalog.cleared formCount).contexts.flatMap (Context.review checks formCount) =
      (catalog.contexts.flatMap (Context.review checks formCount)).filter
        (·.problem == .duplicate) := by
  rw [List.filter_flatMap, contexts_cleared, List.flatMap_map]
  exact List.flatMap_congr fun context _ => Context.review_cleared checks formCount context

/-- A seeded catalog is a consistent blank. For every language that has a plural rule
a catalog can be seeded. The result has a translator, and nothing is translated by
it. It can be reviewed, and what is found are the messages that a review of the
catalog itself, taken for one of that language, finds to occur twice. -/
theorem seeded_is_blank (catalog : Catalog) {tag : String}
    (accepted : ∃ rule, PluralRule.ofLanguage tag = .ok rule) :
    ∃ seeded, catalog.seeded tag = .ok seeded ∧
      (∀ initially, (Translator.ofCatalog seeded initially).map Translator.answers =
        .ok Answers.untranslated) ∧
      ∀ checks, ∃ findings,
        Catalog.review checks { catalog with language := some tag } = .ok findings ∧
          seeded.review checks = .ok (findings.filter (·.problem == .duplicate)) := by
  obtain ⟨rule, ruled⟩ := accepted
  refine ⟨_, seeded_of_rule ruled, fun initially => ?_, fun checks => ?_⟩
  · rw [Translator.map_answers_ofCatalog, pluralRule_of_language rfl ruled]
    refine congrArg Except.ok (Answers.ofSelection_eq_untranslated ?_)
    intro includeUnfinished context source comment message selected text member
    obtain ⟨owner, inside, live⟩ := mem_of_select? selected
    exact eq_empty_of_cleared inside live member
  · refine ⟨_, review_of_rule (pluralRule_of_language rfl ruled) checks, ?_⟩
    rw [review_of_rule (pluralRule_of_language rfl ruled)]
    exact congrArg Except.ok (flatMap_review_cleared checks rule.formCount catalog)

/-- Of a message that is short of forms, one that occurs twice with a marker lost, and
one that is history, a catalog seeded for Polish keeps the repetition only. -/
theorem repetition_seeded_for_polish :
    ∃ seeded, Catalog.seeded ⟨"2.0", some "de", none,
        [⟨"A", [⟨[], "%n of %1", none, none, none, none, .plural ["%1"], .finished⟩,
          ⟨[], "%1", none, none, none, none, .singular "y", .finished⟩,
          ⟨[], "%1", some "", none, none, none, .singular "", .finished⟩,
          ⟨[], "%1", none, none, none, none, .singular "z", .vanished⟩]⟩]⟩ "pl" = .ok seeded ∧
      (Translator.ofCatalog seeded true).map Translator.answers = .ok Answers.untranslated ∧
      seeded.review .all = .ok [⟨"A", "%1", .duplicate⟩] := by
  have accepted : ∃ rule, PluralRule.ofLanguage "pl" = .ok rule := ⟨.polish, rfl⟩
  obtain ⟨seeded, made, untranslated, reviewed⟩ := seeded_is_blank
    ⟨"2.0", some "de", none,
      [⟨"A", [⟨[], "%n of %1", none, none, none, none, .plural ["%1"], .finished⟩,
        ⟨[], "%1", none, none, none, none, .singular "y", .finished⟩,
        ⟨[], "%1", some "", none, none, none, .singular "", .finished⟩,
        ⟨[], "%1", none, none, none, none, .singular "z", .vanished⟩]⟩]⟩
    accepted
  obtain ⟨findings, original, kept⟩ := reviewed .all
  refine ⟨seeded, made, untranslated true, ?_⟩
  rw [kept, ← Except.ok.inj original]
  rfl

end Catalog

end MessageCatalog
