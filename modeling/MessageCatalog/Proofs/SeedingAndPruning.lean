import Mathlib.Data.List.Forall2
import MessageCatalog.Proofs.Pruning
import MessageCatalog.Proofs.Seeding

/-!
# Seeding and pruning together

Seeding again is seeding for the last language, pruning again is pruning once, and the two
can be done in either order, because seeding does not change which messages are live and
pruning does not look at anything else. What both do to the counts of a catalog is known
from the catalog alone, and what they do not name they leave as it is.
-/

namespace MessageCatalog

/-- A blank translation made blank for another number of forms. -/
theorem Translation.blank_blank (first second : Nat) (translation : Translation) :
    (translation.blank first).blank second = translation.blank second := by
  cases translation <;> rfl

namespace Message

/-- What may be different of a message after seeding: nothing of history, and of a live
message its status, the translator's remark, and the texts of its translation. -/
structure SeedsTo (before after : Message) : Prop where
  /-- History stays as it is. -/
  history : before.isLive = false → after = before
  /-- With the status, the remark and the translation put back, it is the message before. -/
  kept : { after with
    status := before.status
    translatorComment := before.translatorComment
    translation := before.translation } = before
  /-- Its translation is of the same kind. -/
  kind : after.isPlural = before.isPlural

variable (formCount : Nat) (message : Message)

/-- Seeding stays within these differences. -/
theorem seedsTo_seed : message.SeedsTo (message.seed formCount) := by
  unfold seed
  split
  next live =>
    refine ⟨fun history => ?_, rfl, ?_⟩
    · rw [live] at history
      contradiction
    · rw [isPlural, isPlural]
      cases message.translation <;> rfl
  next => exact ⟨fun _ => rfl, rfl, rfl⟩

/-- A message that is seeded again is seeded for the last number of forms. -/
theorem seed_seed (first : Nat) :
    (message.seed first).seed formCount = message.seed formCount := by
  cases live : message.isLive with
  | false => simp [seed, live]
  | true =>
    have still : (message.seed first).isLive = true := (isLive_seed first message).trans live
    rw [seed, if_pos still, seed, if_pos live, seed, if_pos live]
    simp only [Translation.blank_blank]

/-- Seeded messages are never finished, unfinished if they are live, and history if they
were. -/
theorem status_seed_beq (status : Status) :
    ((message.seed formCount).status == status) =
      match status with
      | .finished => false
      | .unfinished => message.isLive
      | .obsolete => message.status == .obsolete
      | .vanished => message.status == .vanished := by
  have seeded : (message.seed formCount).status =
      if message.isLive then .unfinished else message.status := by
    unfold seed
    split <;> rfl
  rw [seeded, isLive]
  cases message.status <;> cases status <;> rfl

end Message

namespace Context

/-- What may be different of a context after seeding: its messages, each in its place. -/
structure SeedsTo (before after : Context) : Prop where
  /-- It has the same name. -/
  name : after.name = before.name
  /-- Its messages are as many, in the same order. -/
  messages : List.Forall₂ Message.SeedsTo before.messages after.messages

variable (formCount : Nat) (context : Context)

/-- Seeding stays within these differences. -/
theorem seedsTo_cleared : context.SeedsTo (context.cleared formCount) where
  name := rfl
  messages := List.forall₂_map_right_iff.mpr
    (List.forall₂_same.mpr fun message _ => message.seedsTo_seed formCount)

/-- A context that is seeded again is seeded for the last number of forms. -/
theorem cleared_cleared (first : Nat) :
    (context.cleared first).cleared formCount = context.cleared formCount := by
  rw [cleared, cleared, cleared, List.map_map]
  exact congrArg _ (List.map_congr_left fun message _ => message.seed_seed formCount first)

/-- Seeding and pruning a context can be done in either order. -/
theorem pruned_cleared :
    (context.cleared formCount).pruned = context.pruned.cleared formCount := by
  rw [pruned, live_cleared, cleared]
  rfl

/-- The context has a live message. -/
def isUsed (context : Context) : Bool := context.messages.any Message.isLive

/-- What has no live message is left empty by pruning. -/
theorem isEmpty_messages_pruned : (!context.pruned.messages.isEmpty) = context.isUsed := by
  rw [Bool.eq_iff_iff, pruned, isUsed, live]
  simp [List.filter_eq_nil_iff]

end Context

/-- Every message has one of four statuses. -/
theorem countP_status_add (messages : List Message) :
    messages.countP (·.status == .finished) + messages.countP (·.status == .unfinished) +
      messages.countP (·.status == .obsolete) + messages.countP (·.status == .vanished) =
        messages.length := by
  induction messages with
  | nil => rfl
  | cons message rest ih =>
    rw [List.length_cons, ← ih]
    cases status : message.status <;> simp [status] <;> omega

namespace Catalog

/-- What is different of a catalog after seeding for a language: this language, and live
messages without their translation. -/
structure SeedsTo (before : Catalog) (language : String) (after : Catalog) : Prop where
  /-- It has the same version. -/
  version : after.version = before.version
  /-- It is for the language. -/
  language : after.language = some language
  /-- It has the same language of the source texts. -/
  sourceLanguage : after.sourceLanguage = before.sourceLanguage
  /-- Its contexts are as many, in the same order. -/
  contexts : List.Forall₂ Context.SeedsTo before.contexts after.contexts
  /-- Nothing is finished, what was live is unfinished, and nothing else is counted anew. -/
  tally : after.tally = { before.tally with
    finished := 0
    unfinished := before.messages.countP Message.isLive }

/-- What is different of a catalog after pruning: history is gone, and with it the contexts
that had nothing else. -/
structure PrunesTo (before after : Catalog) : Prop where
  /-- It has the same version. -/
  version : after.version = before.version
  /-- It is for the same language. -/
  language : after.language = before.language
  /-- It has the same language of the source texts. -/
  sourceLanguage : after.sourceLanguage = before.sourceLanguage
  /-- The contexts with live messages are left, in the same order, and of each the live
  messages as they were. -/
  contexts : after.contexts = (before.contexts.filter Context.isUsed).map fun context =>
    ⟨context.name, context.messages.filter Message.isLive⟩
  /-- The live messages and the contexts that have some are counted. -/
  tally : after.tally = {
    contexts := before.contexts.countP Context.isUsed
    messages := before.messages.countP Message.isLive
    finished := before.tally.finished
    unfinished := before.tally.unfinished
    obsolete := 0
    vanished := 0
    plural := before.messages.countP fun message => message.isLive && message.isPlural }

variable (formCount : Nat) (catalog : Catalog)

/-- The messages of a cleared catalog are the messages, cleared. -/
theorem messages_cleared :
    (catalog.cleared formCount).messages = catalog.messages.map (Message.seed formCount) := by
  rw [messages, contexts_cleared, List.flatMap_map, messages, List.map_flatMap]
  rfl

/-- A catalog that is cleared again is cleared for the last number of forms. -/
theorem cleared_cleared (first : Nat) :
    (catalog.cleared first).cleared formCount = catalog.cleared formCount := by
  have contexts : ((catalog.cleared first).cleared formCount).contexts =
      (catalog.cleared formCount).contexts := by
    rw [contexts_cleared, contexts_cleared, contexts_cleared, List.map_map]
    exact List.map_congr_left fun context _ => context.cleared_cleared formCount first
  exact congrArg (fun contexts => { catalog with contexts }) contexts

/-- Clearing and pruning can be done in either order. -/
theorem pruned_cleared :
    (catalog.cleared formCount).pruned = catalog.pruned.cleared formCount := by
  have contexts : (catalog.cleared formCount).pruned.contexts =
      (catalog.pruned.cleared formCount).contexts := by
    calc (catalog.cleared formCount).pruned.contexts
      _ = ((catalog.contexts.map Context.pruned).map (Context.cleared formCount)).filter
            (!·.messages.isEmpty) := by
        rw [contexts_pruned, contexts_cleared, List.map_map, List.map_map]
        exact congrArg _ (List.map_congr_left fun context _ => context.pruned_cleared formCount)
      _ = ((catalog.contexts.map Context.pruned).filter (!·.messages.isEmpty)).map
            (Context.cleared formCount) := by
        rw [List.filter_map]
        refine congrArg _ (List.filter_congr fun context _ => ?_)
        simp [Context.cleared]
      _ = (catalog.pruned.cleared formCount).contexts := rfl
  exact congrArg (fun contexts => { catalog with contexts }) contexts

/-- The counts of a cleared catalog. -/
theorem tally_cleared : (catalog.cleared formCount).tally = { catalog.tally with
    finished := 0
    unfinished := catalog.messages.countP Message.isLive } := by
  have plural (message : Message) : (message.seed formCount).isPlural = message.isPlural :=
    (message.seedsTo_seed formCount).kind
  have counted (status : Status) : (catalog.cleared formCount).messages.countP
      (·.status == status) = catalog.messages.countP fun message =>
        (message.seed formCount).status == status := by
    rw [messages_cleared, List.countP_map]
    rfl
  have contexts : (catalog.cleared formCount).contexts.length = catalog.contexts.length := by
    rw [contexts_cleared, List.length_map]
  rw [tally, tally, contexts]
  simp only [counted, Message.status_seed_beq, List.countP_false]
  simp only [messages_cleared, List.length_map, List.countP_map, Function.comp_def, plural]
  rfl

/-- Seeding for a language makes no other differences. -/
theorem seedsTo_cleared (language : String) :
    catalog.SeedsTo language { catalog.cleared formCount with language := some language } where
  version := rfl
  language := rfl
  sourceLanguage := rfl
  contexts := List.forall₂_map_right_iff.mpr
    (List.forall₂_same.mpr fun context _ => context.seedsTo_cleared formCount)
  tally := catalog.tally_cleared formCount

/-- The contexts of a pruned catalog are those with live messages. -/
theorem contexts_pruned_eq_map : catalog.pruned.contexts =
    (catalog.contexts.filter Context.isUsed).map Context.pruned := by
  rw [contexts_pruned, List.filter_map]
  exact congrArg _ (List.filter_congr fun context _ => context.isEmpty_messages_pruned)

/-- The counts of a pruned catalog. -/
theorem tally_pruned : catalog.pruned.tally = {
    contexts := catalog.contexts.countP Context.isUsed
    messages := catalog.messages.countP Message.isLive
    finished := catalog.tally.finished
    unfinished := catalog.tally.unfinished
    obsolete := 0
    vanished := 0
    plural := catalog.messages.countP fun message => message.isLive && message.isPlural } := by
  have gone {status : Status} (dead : status.isLive = false) :
      catalog.pruned.messages.countP (·.status == status) = 0 := by
    rw [messages_pruned, List.countP_filter]
    refine List.countP_eq_zero.mpr fun message _ => ?_
    simp only [Bool.and_eq_true, beq_iff_eq, not_and]
    rintro rfl
    simp [Message.isLive, dead]
  have contexts : catalog.pruned.contexts.length = catalog.contexts.countP Context.isUsed := by
    rw [contexts_pruned_eq_map, List.length_map, List.countP_eq_length_filter]
  have live : catalog.pruned.messages.length = catalog.messages.countP Message.isLive := by
    rw [messages_pruned, List.countP_eq_length_filter]
  have plural : catalog.pruned.messages.countP Message.isPlural =
      catalog.messages.countP fun message => message.isLive && message.isPlural := by
    rw [messages_pruned, List.countP_filter]
    exact List.countP_congr fun message _ => by rw [Bool.and_comm]
  have finished := countP_status_pruned (rfl : Status.isLive .finished = true) catalog
  have unfinished := countP_status_pruned (rfl : Status.isLive .unfinished = true) catalog
  have obsolete := gone (rfl : Status.isLive .obsolete = false)
  have vanished := gone (rfl : Status.isLive .vanished = false)
  rw [tally, tally, contexts, live, plural]
  simp only [finished, unfinished, obsolete, vanished]

/-- Pruning makes no other differences. -/
theorem prunesTo_pruned : catalog.PrunesTo catalog.pruned where
  version := rfl
  language := rfl
  sourceLanguage := rfl
  contexts := catalog.contexts_pruned_eq_map
  tally := catalog.tally_pruned

/-- Seeding and pruning keep their books. Every message of a catalog is counted under one
status. Pruning takes away history and the contexts that have nothing else, and nothing is
left to prune. For every language that has a plural rule a catalog can be seeded. The result
has nothing finished and differs in nothing but the language and the live translations; it
does not matter for what is seeded later on, and it may be pruned before or after. -/
theorem seeding_and_pruning (catalog : Catalog) :
    catalog.tally.finished + catalog.tally.unfinished + catalog.tally.obsolete +
      catalog.tally.vanished = catalog.tally.messages ∧
    catalog.PrunesTo catalog.pruned ∧ catalog.pruned.pruned = catalog.pruned ∧
    ∀ language rule, PluralRule.ofLanguage language = .ok rule →
      ∃ seeded, catalog.seeded language = .ok seeded ∧ catalog.SeedsTo language seeded ∧
        (∀ later, seeded.seeded later = catalog.seeded later) ∧
        catalog.pruned.seeded language = .ok seeded.pruned := by
  refine ⟨countP_status_add catalog.messages, catalog.prunesTo_pruned, catalog.pruned_pruned, ?_⟩
  intro language rule ruled
  refine ⟨_, seeded_of_rule ruled, catalog.seedsTo_cleared rule.formCount language, ?_, ?_⟩
  · intro later
    rw [seeded, seeded]
    cases pluralRuleOf later with
    | error fault => rfl
    | ok second =>
      have same := catalog.cleared_cleared second.formCount rule.formCount
      exact congrArg (fun cleared => Except.ok { cleared with language := some later }) same
  · rw [seeded_of_rule ruled, ← catalog.pruned_cleared]
    rfl

/-- A German catalog with all four statuses, seeded for Japanese and then for Polish: a
pruned seeded catalog, its counts, and the Polish catalog made of either. -/
theorem german_seeded_and_pruned :
    ∃ seeded, Catalog.seeded ⟨"2.0", some "de", some "en",
        [⟨"A", [⟨[], "x", none, none, some "r", none, .plural ["y", "z"], .finished⟩,
          ⟨[], "u", none, none, some "r", none, .singular "v", .obsolete⟩]⟩,
        ⟨"B", [⟨[], "x", none, none, none, none, .plural [], .vanished⟩]⟩,
        ⟨"A", [⟨[], "w", none, none, none, some "true", .singular "w", .unfinished⟩]⟩]⟩
        "ja" = .ok seeded ∧
      seeded.tally = ⟨3, 4, 0, 2, 1, 1, 2⟩ ∧ seeded.pruned.tally = ⟨2, 2, 0, 2, 0, 0, 1⟩ ∧
      seeded.pruned.seeded "pl" = .ok ⟨"2.0", some "pl", some "en",
        [⟨"A", [⟨[], "x", none, none, none, none, .plural ["", "", ""], .unfinished⟩]⟩,
        ⟨"A", [⟨[], "w", none, none, none, some "true", .singular "", .unfinished⟩]⟩]⟩ := by
  obtain ⟨_, _, _, seeds⟩ := seeding_and_pruning ⟨"2.0", some "de", some "en",
    [⟨"A", [⟨[], "x", none, none, some "r", none, .plural ["y", "z"], .finished⟩,
      ⟨[], "u", none, none, some "r", none, .singular "v", .obsolete⟩]⟩,
    ⟨"B", [⟨[], "x", none, none, none, none, .plural [], .vanished⟩]⟩,
    ⟨"A", [⟨[], "w", none, none, none, some "true", .singular "w", .unfinished⟩]⟩]⟩
  obtain ⟨seeded, made, changes, again, either⟩ := seeds "ja" .single rfl
  obtain ⟨_, prunes, _, seedsOfSeeded⟩ := seeding_and_pruning seeded
  obtain ⟨polish, madePolish, _, _, eitherPolish⟩ := seedsOfSeeded "pl" .polish rfl
  have own := Except.ok.inj made
  refine ⟨seeded, made, changes.tally, ?_, ?_⟩
  · rw [prunes.tally, ← own]
    rfl
  · rw [again] at madePolish
    rw [eitherPolish, ← Except.ok.inj madePolish]
    rfl

end Catalog

end MessageCatalog
