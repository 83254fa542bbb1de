import Mathlib.Data.Finset.Card
import Mathlib.Data.List.Infix
import MessageCatalog.Proofs.Seeding

/-!
# What a review finds

A review goes over the live messages with the keys that it has seen. Its findings can
be told message by message: what is wrong with a message depends on the message and on
the live messages of its context before it, and a switch only tells whether a problem
of its kind is shown. So the switches do not depend on each other, and in a context as
many messages are duplicates as there are more live messages than keys.
-/

namespace MessageCatalog

/-- Whether the switches show problems of a kind. -/
def Problem.isShown (checks : Checks) : Problem → Bool
  | numerusArity _ _ => checks.numerusArity
  | placeMarker _ => checks.placeMarkers
  | duplicate => checks.duplicates
  | emptyFinished => checks.emptyFinished

namespace Message

/-- A message repeats an earlier one with the same source text and the same comment, an
absent comment being an empty one. -/
def Repeats (message : Message) (earlier : List Message) : Prop :=
  ∃ other ∈ earlier, other.source = message.source ∧
    other.commentOrEmpty = message.commentOrEmpty

instance (message : Message) (earlier : List Message) : Decidable (message.Repeats earlier) :=
  inferInstanceAs (Decidable (∃ other ∈ earlier, _))

/-- A message repeats another one if that has its key. -/
theorem repeats_iff {message : Message} {earlier : List Message} :
    message.Repeats earlier ↔ message.key ∈ earlier.map key := by
  simp only [Repeats, List.mem_map, key, Prod.mk.injEq]

/-- What is wrong with the translation of a message as a whole: a number of plural forms
that is not that of the language, or a finished text that is empty. -/
def translationWrongs (formCount : Nat) (message : Message) : List Problem :=
  match message.translation with
  | .plural forms => if forms.length ≠ formCount then [.numerusArity formCount forms.length] else []
  | .singular text =>
    if message.status = Status.finished ∧ text = "" then [.emptyFinished] else []

/-- All that is wrong with a message behind the earlier live messages of its context, in
the order of a report. -/
def wrongs (formCount : Nat) (earlier : List Message) (message : Message) : List Problem :=
  (if message.Repeats earlier then [.duplicate] else []) ++ message.translationWrongs formCount ++
    (PlaceMarker.mismatches message.source message.translation.texts).map .placeMarker

/-- The problem of a translation is what is wrong with it and shown. -/
theorem toList_translationProblem? (checks : Checks) (formCount : Nat) (message : Message) :
    (message.translationProblem? checks formCount).toList =
      (message.translationWrongs formCount).filter (Problem.isShown checks) := by
  unfold translationProblem? translationWrongs
  cases message.translation with
  | plural forms =>
    by_cases arity : forms.length = formCount
    · simp [arity]
    · cases shown : checks.numerusArity <;> simp [arity, Problem.isShown, shown]
  | singular text =>
    by_cases bare : message.status = Status.finished ∧ text = ""
    · cases shown : checks.emptyFinished <;> simp [bare, Problem.isShown, shown]
    · have kept : (message.status == Status.finished && text.isEmpty) = false := by
        simpa using bare
      simp [bare, Bool.and_assoc, kept]

/-- The problems of a message are what is wrong with it and shown. -/
theorem problems_eq_filter_wrongs {checks : Checks} {formCount : Nat}
    {seen : List (String × String)} {earlier : List Message}
    (known : ∀ key, key ∈ seen ↔ key ∈ earlier.map Message.key) (message : Message) :
    message.problems checks formCount seen =
      (message.wrongs formCount earlier).filter (Problem.isShown checks) := by
  have repetition : (if checks.duplicates && seen.contains message.key then [Problem.duplicate]
      else []) = (if message.Repeats earlier then [Problem.duplicate] else []).filter
        (Problem.isShown checks) := by
    by_cases repeated : message.key ∈ seen
    · have repeats : message.Repeats earlier := repeats_iff.mpr ((known _).mp repeated)
      cases shown : checks.duplicates <;> simp [repeated, repeats, Problem.isShown, shown]
    · have single : ¬message.Repeats earlier := fun h => repeated ((known _).mpr (repeats_iff.mp h))
      simp [repeated, single]
  have markers (numbers : List Nat) : (if checks.placeMarkers then numbers.map Problem.placeMarker
      else []) = (numbers.map Problem.placeMarker).filter (Problem.isShown checks) := by
    cases shown : checks.placeMarkers <;>
      simp [List.filter_map, Function.comp_def, Problem.isShown, shown]
  rw [problems, wrongs, List.filter_append, List.filter_append, repetition, markers,
    toList_translationProblem?]

end Message

namespace Context

/-- Each live message with the live messages before it. -/
def withEarlier (context : Context) : List (List Message × Message) :=
  context.live.inits.zip context.live

/-- What is found in a context, told message by message. -/
def told (checks : Checks) (formCount : Nat) (context : Context) : List Finding :=
  context.withEarlier.flatMap fun entry =>
    ((entry.2.wrongs formCount entry.1).filter (Problem.isShown checks)).map
      fun problem => ⟨context.name, entry.2.source, problem⟩

/-- Behind some messages a review finds what can be told of those that follow. -/
theorem reviewFrom_eq_flatMap {checks : Checks} {formCount : Nat} {name : String}
    {seen : List (String × String)} {earlier : List Message}
    (known : ∀ key, key ∈ seen ↔ key ∈ earlier.map Message.key) (messages : List Message) :
    reviewFrom checks formCount name seen messages =
      (messages.inits.zip messages).flatMap fun entry =>
        ((entry.2.wrongs formCount (earlier ++ entry.1)).filter (Problem.isShown checks)).map
          fun problem => ⟨name, entry.2.source, problem⟩ := by
  induction messages generalizing seen earlier with
  | nil => rfl
  | cons first rest ih =>
    have known' : ∀ key, key ∈ first.key :: seen ↔ key ∈ (earlier ++ [first]).map Message.key := by
      intro key
      rw [List.mem_cons, known, List.map_append, List.mem_append, List.map_singleton,
        List.mem_singleton, or_comm]
    rw [reviewFrom, List.inits_cons, List.zip_cons_cons, List.flatMap_cons,
      Message.problems_eq_filter_wrongs known, ih known', List.zip_map_left, List.flatMap_map]
    simp only [Prod.map_fst, Prod.map_snd, id_eq, List.append_assoc, List.singleton_append,
      List.append_nil]

/-- A review finds in a context what can be told of its messages. -/
theorem review_eq_told (checks : Checks) (formCount : Nat) (context : Context) :
    context.review checks formCount = context.told checks formCount := by
  have known : ∀ key, key ∈ ([] : List (String × String)) ↔ key ∈ [].map Message.key := by simp
  exact reviewFrom_eq_flatMap known context.live

/-- Switching checks off takes away the findings of their kinds. -/
theorem told_eq_filter (checks : Checks) (formCount : Nat) (context : Context) :
    context.told checks formCount =
      (context.told .all formCount).filter (·.problem.isShown checks) := by
  have every : Problem.isShown .all = fun _ => true := by
    funext problem
    cases problem <;> rfl
  unfold told
  rw [List.filter_flatMap]
  simp only [List.filter_map, every, List.filter_true, Function.comp_def]

/-- With every key that comes up again there is a duplicate. -/
theorem countP_duplicate_reviewFrom {checks : Checks} (looking : checks.duplicates = true)
    (formCount : Nat) (name : String) (seen : List (String × String)) (messages : List Message) :
    (reviewFrom checks formCount name seen messages).countP (·.problem == .duplicate) +
      ((messages.map Message.key).toFinset \ seen.toFinset).card = messages.length := by
  induction messages generalizing seen with
  | nil => simp [reviewFrom]
  | cons first rest ih =>
    have own : ((first.problems checks formCount seen).map
        fun problem => (⟨name, first.source, problem⟩ : Finding)).countP
          (·.problem == .duplicate) = if first.key ∈ seen then 1 else 0 := by
      rw [List.countP_map, List.countP_eq_length_filter]
      have same : ((· == .duplicate) ∘ fun problem : Problem => problem) = (· == .duplicate) := rfl
      simp only [Function.comp_def, Message.filter_duplicate_problems, looking, Bool.true_and]
      by_cases repeated : first.key ∈ seen <;> simp [repeated]
    rw [reviewFrom, List.countP_append, own, List.length_cons, ← ih (first.key :: seen),
      List.map_cons, List.toFinset_cons, List.toFinset_cons]
    by_cases repeated : first.key ∈ seen
    · have known : first.key ∈ seen.toFinset := List.mem_toFinset.mpr repeated
      rw [if_pos repeated, Finset.insert_sdiff_of_mem _ known, Finset.insert_eq_of_mem known]
      omega
    · have new : first.key ∉ seen.toFinset := fun h => repeated (List.mem_toFinset.mp h)
      have absent : first.key ∉ (rest.map Message.key).toFinset \ insert first.key seen.toFinset := by
        simp
      have apart : insert first.key (rest.map Message.key).toFinset \ seen.toFinset =
          insert first.key ((rest.map Message.key).toFinset \ insert first.key seen.toFinset) := by
        ext key
        by_cases same : key = first.key <;> simp [same, repeated]
      rw [if_neg repeated, apart, Finset.card_insert_of_notMem absent]
      omega

/-- In a context the duplicates, if they are looked for, are as many as the live messages
without the different keys. -/
theorem countP_duplicate_told (checks : Checks) (formCount : Nat) (context : Context) :
    (context.told checks formCount).countP (·.problem == .duplicate) =
      if checks.duplicates then context.live.length - (context.live.map Message.key).toFinset.card
      else 0 := by
  split
  next looking =>
    have all := countP_duplicate_reviewFrom looking formCount context.name [] context.live
    rw [← review, review_eq_told] at all
    simp only [List.toFinset_nil, Finset.sdiff_empty] at all
    omega
  next silent =>
    rw [told_eq_filter, List.countP_filter, List.countP_eq_zero]
    intro finding _
    cases finding.problem <;> simp [Problem.isShown, silent]

end Context

namespace Catalog

/-- A catalog has a plural rule unless its language is no language tag. -/
theorem exists_pluralRule_iff (catalog : Catalog) : (∃ rule, catalog.pluralRule = .ok rule) ↔
    ∀ tag, catalog.language = some tag → ∃ parts, LanguageTag.parse tag = .ok parts := by
  unfold pluralRule
  cases catalog.language with
  | none => simp
  | some tag =>
    cases parsed : LanguageTag.parse tag <;>
      simp [pluralRuleOf, PluralRule.ofLanguage, Except.map, parsed]

/-- A review of a catalog finds what can be told of its messages, context by context, if
it knows the plural rule. -/
theorem review_eq_map (checks : Checks) (catalog : Catalog) :
    catalog.review checks = catalog.pluralRule.map fun rule =>
      catalog.contexts.flatMap (Context.told checks rule.formCount) := by
  have same (formCount : Nat) : Context.review checks formCount = Context.told checks formCount :=
    funext (Context.review_eq_told checks formCount)
  rw [review]
  cases catalog.pluralRule with
  | error fault => rfl
  | ok rule => simp only [same, Except.map]

/-- If the language of a catalog is a tag or absent, a review reports what is wrong with
the messages and shown, in file order. Of the duplicates of a context there are as many
as there are more live messages than keys, and switching some checks off takes away the
findings of their kinds only. -/
theorem review_reports_wrongs (checks : Checks) (catalog : Catalog) :
    ((∃ rule, catalog.pluralRule = .ok rule) ↔
      ∀ tag, catalog.language = some tag → ∃ parts, LanguageTag.parse tag = .ok parts) ∧
    (catalog.review checks = catalog.pluralRule.map fun rule =>
      catalog.contexts.flatMap fun context => context.withEarlier.flatMap fun entry =>
        ((entry.2.wrongs rule.formCount entry.1).filter (Problem.isShown checks)).map
          fun problem => ⟨context.name, entry.2.source, problem⟩) ∧
    (∀ (context : Context) (formCount : Nat),
      (context.review checks formCount).countP (·.problem == .duplicate) =
        if checks.duplicates then
          context.live.length - (context.live.map Message.key).toFinset.card
        else 0) ∧
    catalog.review checks =
      (catalog.review .all).map (List.filter (·.problem.isShown checks)) := by
  refine ⟨exists_pluralRule_iff catalog, review_eq_map checks catalog, fun context formCount => ?_, ?_⟩
  · rw [Context.review_eq_told]
    exact Context.countP_duplicate_told checks formCount context
  · rw [review_eq_map, review_eq_map]
    cases catalog.pluralRule with
    | error fault => rfl
    | ok rule =>
      have same := funext (Context.told_eq_filter checks rule.formCount)
      simp only [Except.map, List.filter_flatMap, same]

end Catalog

end MessageCatalog
