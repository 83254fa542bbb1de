import MessageCatalog.Proofs.IndexedLookup

/-!
# What translators answer

Everything that can be asked of a translator, as one value. It depends on the
plural rule of the catalog and on the messages that answer for source texts, and
these depend on nothing but the live messages in file order.
-/

namespace MessageCatalog

/-- The answers of a translator, without (`false`) and with (`true`) unfinished
translations. -/
structure Answers where
  /-- The translation of a source text in a context, for a comment. -/
  lookup : Bool → String → String → Option String → String
  /-- The translation of a source text for a count. -/
  lookupPlural : Bool → String → String → Option String → Nat → String
  /-- The translation of a source text for a count, with the count in it. -/
  translatePlural : Bool → String → String → Nat → String

namespace Answers

/-- The answers that follow from a plural rule and a choice of messages. -/
def ofSelection (rule : PluralRule)
    (select : Bool → String → String → Option String → Option Message) : Answers where
  lookup includeUnfinished context source comment :=
    Translator.orSource source
      ((select includeUnfinished context source comment).bind (·.translation.text?))
  lookupPlural includeUnfinished context source comment count :=
    Translator.orSource source
      ((select includeUnfinished context source comment).bind (·.translation.formFor? rule count))
  translatePlural includeUnfinished context source count :=
    substituteCount
      (Translator.orSource source
        ((select includeUnfinished context source none).bind (·.translation.formFor? rule count)))
      count

/-- The answers where nothing is translated: source texts, with the count in them
where one is asked for. -/
def untranslated : Answers where
  lookup _ _ source _ := source
  lookupPlural _ _ source _ _ := source
  translatePlural _ _ source count := substituteCount source count

end Answers

namespace Translator

/-- Everything a translator answers. -/
def answers (translator : Translator) : Answers where
  lookup includeUnfinished := (translator.withUnfinished includeUnfinished).lookup
  lookupPlural includeUnfinished := (translator.withUnfinished includeUnfinished).lookupPlural
  translatePlural includeUnfinished :=
    (translator.withUnfinished includeUnfinished).translatePlural

/-- The answers of a translator that uses the index of its own catalog are those
that scanning the catalog selects. -/
theorem answers_eq_ofSelection {translator : Translator}
    (indexed : translator.index = translator.catalog.index) :
    translator.answers = Answers.ofSelection translator.rule translator.catalog.select? := by
  have found (includeUnfinished : Bool) (context source : String) (comment : Option String) :
      (translator.withUnfinished includeUnfinished).find? context source comment =
        translator.catalog.select? includeUnfinished context source comment := by
    have own : (translator.withUnfinished includeUnfinished).catalog = translator.catalog := rfl
    exact find?_eq_select? own indexed context source comment
  unfold answers Answers.ofSelection lookup translatePlural lookupPlural
  simp only [found]
  rfl

/-- The translator of a catalog answers by the catalog's rule with what scanning it
selects; there is none exactly when there is no rule. -/
theorem map_answers_ofCatalog (catalog : Catalog) (initially : Bool) :
    (ofCatalog catalog initially).map answers =
      catalog.pluralRule.map fun rule => Answers.ofSelection rule catalog.select? := by
  unfold ofCatalog
  cases catalog.pluralRule with
  | error fault => rfl
  | ok rule => exact congrArg Except.ok (answers_eq_ofSelection rfl)

end Translator

/-- Whether a message answers where its source text is looked up for a comment. -/
def Message.suits (includeUnfinished : Bool) (comment : String) (message : Message) : Bool :=
  message.commentOrEmpty == comment && (includeUnfinished || message.status == .finished)

/-- The live messages of a context with the key they are looked up by. -/
def Context.liveEntries (context : Context) : List ((String × String) × Message) :=
  context.live.map fun message => ((context.name, message.source), message)

namespace Catalog

/-- Whether a live message answers for a context name, a source text and a comment. -/
def isAnswer (includeUnfinished : Bool) (context source comment : String)
    (entry : (String × String) × Message) : Bool :=
  entry.1 == (context, source) && entry.2.suits includeUnfinished comment

/-- The live messages of a catalog are those of its contexts. -/
theorem liveEntries_eq_flatMap (catalog : Catalog) :
    catalog.liveEntries = catalog.contexts.flatMap Context.liveEntries := rfl

/-- A scan meets the live messages in file order. -/
theorem scan?_eq_find?_liveEntries (catalog : Catalog) (includeUnfinished : Bool)
    (context source comment : String) :
    catalog.scan? includeUnfinished context source comment =
      (catalog.liveEntries.find? (isAnswer includeUnfinished context source comment)).map
        Prod.snd := by
  calc catalog.scan? includeUnfinished context source comment
    _ = ((catalog.messagesIn context).filter fun message =>
          message.isLive && message.source == source).find?
            (Message.suits includeUnfinished comment) := by
      rw [List.find?_filter, scan?]
      congr 1
      funext message
      rw [Bool.eq_iff_iff]
      simp [Message.suits, and_assoc]
    _ = ((catalog.liveEntries.filter (·.1 == (context, source))).map Prod.snd).find?
          (Message.suits includeUnfinished comment) := by
      rw [map_liveEntries]
    _ = _ := by
      rw [List.find?_map, List.find?_filter]
      congr 2
      funext entry
      rw [Bool.eq_iff_iff]
      simp [isAnswer]

/-- Which messages answer depends on the live messages only. -/
theorem select?_congr {first second : Catalog} (same : first.liveEntries = second.liveEntries) :
    first.select? = second.select? := by
  funext includeUnfinished context source comment
  simp only [select?, scan?_eq_find?_liveEntries, same]

/-- A message that answers is a live one of the catalog. -/
theorem mem_of_select? {catalog : Catalog} {includeUnfinished : Bool} {context source : String}
    {comment : Option String} {message : Message}
    (selected : catalog.select? includeUnfinished context source comment = some message) :
    ∃ owner ∈ catalog.contexts, message ∈ owner.live := by
  have of_scan {wanted : String}
      (met : catalog.scan? includeUnfinished context source wanted = some message) :
      ∃ owner ∈ catalog.contexts, message ∈ owner.live := by
    have accepted := List.find?_some met
    have member := List.mem_of_find?_eq_some met
    obtain ⟨owner, named, inside⟩ := List.mem_flatMap.mp member
    have live : message.isLive = true := by
      simp only [Bool.and_eq_true] at accepted
      exact accepted.1.1.1
    exact ⟨owner, List.mem_of_mem_filter named, List.mem_filter.mpr ⟨inside, live⟩⟩
  unfold select? at selected
  split at selected
  next first met =>
    rw [Option.some.inj selected] at met
    exact of_scan met
  next =>
    split at selected
    · contradiction
    · exact of_scan selected

end Catalog

end MessageCatalog
