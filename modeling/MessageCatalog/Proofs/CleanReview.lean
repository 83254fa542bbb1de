import Mathlib.Data.List.Nodup
import MessageCatalog.CatalogReview
import MessageCatalog.Proofs.TranslatorAnswers

/-!
# Clean reviews

What a review without findings says of the messages: no two live ones of a
context have the same source text and comment, every plural translation has as
many forms as the language takes, and no finished translation is empty. So a
lookup of a finished message is answered with its own translation, unless a
context of the same name stands before and has a live message with the same
source text and comment: a review looks at each context by itself, a lookup at
all contexts of a name.
-/

namespace MessageCatalog

/-- Every count takes one of the forms that a complete translation has. -/
theorem PluralRule.formIndex_lt (rule : PluralRule) (count : Nat) :
    rule.formIndex count < rule.formCount := by
  unfold formIndex formCount
  cases rule <;> simp only <;> repeat' split
  all_goals decide

namespace Context

variable {checks : Checks} {formCount : Nat} {name : String}

/-- The problems of a message are found, whatever came before it. -/
theorem mem_reviewFrom {seen : List (String × String)} {messages : List Message}
    {message : Message} (member : message ∈ messages) :
    ∃ before, ∀ problem ∈ message.problems checks formCount before,
      ⟨name, message.source, problem⟩ ∈ reviewFrom checks formCount name seen messages := by
  induction messages generalizing seen with
  | nil => contradiction
  | cons first rest ih =>
    rcases List.mem_cons.mp member with rfl | later
    · exact ⟨seen, fun problem own => List.mem_append_left _ (List.mem_map_of_mem own)⟩
    · obtain ⟨before, found⟩ := ih later
      exact ⟨before, fun problem own => List.mem_append_right _ (found problem own)⟩

/-- Without findings there are no problems, whatever came before a message. -/
theorem problems_of_reviewFrom {seen : List (String × String)} {messages : List Message}
    (clean : reviewFrom checks formCount name seen messages = []) {message : Message}
    (member : message ∈ messages) : ∃ before, message.problems checks formCount before = [] := by
  obtain ⟨before, found⟩ := mem_reviewFrom member
  refine ⟨before, List.eq_nil_iff_forall_not_mem.mpr fun problem own => ?_⟩
  have listed := found problem own
  rw [clean] at listed
  contradiction

/-- Without findings, and duplicates looked for, no key occurs twice or has been
seen before. -/
theorem nodup_of_reviewFrom {seen : List (String × String)} {messages : List Message}
    (looking : checks.duplicates = true)
    (clean : reviewFrom checks formCount name seen messages = []) :
    (messages.map Message.key).Nodup ∧ ∀ message ∈ messages, message.key ∉ seen := by
  induction messages generalizing seen with
  | nil => simp
  | cons first rest ih =>
    obtain ⟨here, behind⟩ := List.append_eq_nil_iff.mp clean
    obtain ⟨distinct, new⟩ := ih behind
    have unseen : first.key ∉ seen := by
      intro seenBefore
      have none := List.map_eq_nil_iff.mp here
      simp [Message.problems, looking, seenBefore] at none
    have absent : first.key ∉ rest.map Message.key := by
      intro again
      obtain ⟨message, member, same⟩ := List.mem_map.mp again
      exact new message member (same ▸ List.mem_cons_self)
    refine ⟨List.nodup_cons.mpr ⟨absent, distinct⟩, fun message member => ?_⟩
    rcases List.mem_cons.mp member with rfl | later
    · exact unseen
    · exact fun seenBefore => new message later (List.mem_cons_of_mem _ seenBefore)

end Context

namespace Message

variable {formCount : Nat} {seen : List (String × String)} {message : Message}

/-- A plural translation has all its forms if their number is checked and is none of the
problems. -/
theorem length_forms_of_unfound {checks : Checks} (looking : checks.numerusArity = true)
    (unfound : ∀ problem ∈ message.problems checks formCount seen,
      ∀ expected found, problem ≠ .numerusArity expected found)
    {forms : List String} (translated : message.translation = .plural forms) :
    forms.length = formCount := by
  by_contra differs
  refine unfound (.numerusArity formCount forms.length) ?_ formCount forms.length rfl
  simp [problems, translationProblem?, translated, looking, differs]

/-- A finished translation without problems is not empty. -/
theorem text_ne_empty_of_problems (clean : message.problems .all formCount seen = [])
    (finished : message.status = .finished) {text : String}
    (translated : message.translation = .singular text) : text ≠ "" := by
  rintro rfl
  simp [problems, translationProblem?, translated, Checks.all, finished] at clean

end Message

namespace Catalog

variable {catalog : Catalog}

/-- A clean review knows a plural rule and finds nothing in any context. -/
theorem review_eq_nil {checks : Checks} (clean : catalog.review checks = .ok []) :
    ∃ rule, catalog.pluralRule = .ok rule ∧
      ∀ context ∈ catalog.contexts, context.review checks rule.formCount = [] := by
  cases ruled : catalog.pluralRule with
  | error fault =>
    rw [review, ruled] at clean
    contradiction
  | ok rule =>
    rw [review_of_rule ruled] at clean
    exact ⟨rule, rfl, List.flatMap_eq_nil_iff.mp (Except.ok.inj clean)⟩

/-- No live message of some contexts is what a message of a name is taken for. -/
def Unrivalled (contexts : List Context) (name : String) (message : Message) : Prop :=
  ∀ context ∈ contexts, context.name = name → ∀ rival ∈ context.live, rival.key ≠ message.key

/-- A live message that answers for the source text and the comment of another has
the key of the other. -/
theorem key_eq_of_isAnswer {includeUnfinished : Bool} {name : String} {context : Context}
    {rival message : Message}
    (accepted : isAnswer includeUnfinished name message.source message.commentOrEmpty
      ((context.name, rival.source), rival) = true) :
    context.name = name ∧ rival.key = message.key := by
  simp only [isAnswer, Message.suits, Bool.and_eq_true, beq_iff_eq, Prod.mk.injEq] at accepted
  obtain ⟨⟨named, source⟩, comment, _⟩ := accepted
  exact ⟨named, Prod.ext source comment⟩

/-- A scan for the source text and the comment of a finished message meets this
message if it is the only live one of its context that has them and there is none
in the contexts of that name before. -/
theorem scan?_eq_some {before after : List Context} {context : Context}
    (placed : catalog.contexts = before ++ context :: after)
    (distinct : (context.live.map Message.key).Nodup) {message : Message}
    (member : message ∈ context.live) (finished : message.status = .finished)
    (unrivalled : Unrivalled before context.name message) (includeUnfinished : Bool) :
    catalog.scan? includeUnfinished context.name message.source message.commentOrEmpty =
      some message := by
  have nothing_before : (before.flatMap Context.liveEntries).find?
      (isAnswer includeUnfinished context.name message.source message.commentOrEmpty) = none := by
    refine List.find?_eq_none.mpr fun entry inside accepted => ?_
    obtain ⟨other, earlier, listed⟩ := List.mem_flatMap.mp inside
    obtain ⟨rival, live, rfl⟩ := List.mem_map.mp listed
    obtain ⟨named, same⟩ := key_eq_of_isAnswer accepted
    exact unrivalled other earlier named rival live same
  have here : context.liveEntries.find?
      (isAnswer includeUnfinished context.name message.source message.commentOrEmpty) =
      some ((context.name, message.source), message) := by
    cases found : context.liveEntries.find?
        (isAnswer includeUnfinished context.name message.source message.commentOrEmpty) with
    | none =>
      have refused := List.find?_eq_none.mp found _ (List.mem_map_of_mem member)
      simp [isAnswer, Message.suits, finished] at refused
    | some entry =>
      obtain ⟨rival, live, rfl⟩ := List.mem_map.mp (List.mem_of_find?_eq_some found)
      have same := (key_eq_of_isAnswer (List.find?_some found)).2
      rw [List.inj_on_of_nodup_map distinct live member same]
  rw [scan?_eq_find?_liveEntries, liveEntries_eq_flatMap, placed, List.flatMap_append,
    List.flatMap_cons, List.find?_append, List.find?_append, nothing_before, here]
  rfl

/-- So it is selected for its own source text and comment. -/
theorem select?_eq_some {before after : List Context} {context : Context}
    (placed : catalog.contexts = before ++ context :: after)
    (distinct : (context.live.map Message.key).Nodup) {message : Message}
    (member : message ∈ context.live) (finished : message.status = .finished)
    (unrivalled : Unrivalled before context.name message) (includeUnfinished : Bool) :
    catalog.select? includeUnfinished context.name message.source message.comment =
      some message := by
  have met := scan?_eq_some placed distinct member finished unrivalled includeUnfinished
  rw [Message.commentOrEmpty] at met
  rw [select?, met]

end Catalog

namespace Translator

/-- A translator serves a message of a context: for the source text and the comment
of the message it shows the translation, of a plural one the form that belongs to
the count, or the source text where that form is empty. -/
def Serves (translator : Translator) (rule : PluralRule) (context : String)
    (message : Message) : Prop :=
  match message.translation with
  | .singular text => translator.lookup context message.source message.comment = text
  | .plural forms => ∀ count, ∃ form, forms[rule.formIndex count]? = some form ∧
      translator.lookupPlural context message.source message.comment count =
        if form = "" then message.source else form

/-- A selected translation that has all its forms shows the one that belongs to the count,
or the source text where that form is empty. -/
theorem lookupPlural_of_complete {translator : Translator} {context source : String}
    {comment : Option String} {message : Message} {forms : List String}
    (found : translator.find? context source comment = some message)
    (translated : message.translation = .plural forms)
    (complete : forms.length = translator.rule.formCount) (count : Nat) :
    ∃ form, forms[translator.rule.formIndex count]? = some form ∧
      translator.lookupPlural context source comment count =
        if form = "" then source else form := by
  have inside : translator.rule.formIndex count < forms.length := by
    rw [complete]
    exact translator.rule.formIndex_lt count
  have there := List.getElem?_eq_getElem inside
  refine ⟨_, there, ?_⟩
  rw [lookupPlural, found, orSource_eq_shown, Option.bind_some, translated]
  simp only [Translation.formFor?, there]
  rfl

/-- A message that is selected for its own source text and comment, is finished and
has no problems is served. -/
theorem serves_of_find? {translator : Translator} {context : String} {message : Message}
    {seen : List (String × String)}
    (found : translator.find? context message.source message.comment = some message)
    (finished : message.status = .finished)
    (clean : message.problems .all translator.rule.formCount seen = []) :
    translator.Serves translator.rule context message := by
  unfold Serves
  cases translated : message.translation with
  | singular text =>
    have filled := Message.text_ne_empty_of_problems clean finished translated
    have shows : translator.lookup context message.source message.comment =
        shown message.source (some text) := by
      rw [lookup, found, orSource_eq_shown, Option.bind_some, translated]
      rfl
    rw [shows, shown, if_neg filled]
  | plural forms =>
    have unfound : ∀ problem ∈ message.problems .all translator.rule.formCount seen,
        ∀ expected found, problem ≠ .numerusArity expected found := by simp [clean]
    have complete := Message.length_forms_of_unfound rfl unfound translated
    exact fun count => lookupPlural_of_complete found translated complete count

/-- After a clean review finished translations are served. The catalog has a
translator, and with or without unfinished translations it serves every finished
message of every context, unless a context of the same name before has a live
message with the same source text and comment. -/
theorem finished_are_served {catalog : Catalog} (clean : catalog.review .all = .ok [])
    (initially : Bool) :
    ∃ translator rule, ofCatalog catalog initially = .ok translator ∧
      catalog.pluralRule = .ok rule ∧
      ∀ before context after, catalog.contexts = before ++ context :: after →
        ∀ message ∈ context.messages, message.status = .finished →
          Catalog.Unrivalled before context.name message →
            translator.Serves rule context.name message := by
  obtain ⟨rule, ruled, nothing⟩ := Catalog.review_eq_nil clean
  refine ⟨⟨catalog, rule, catalog.index, initially⟩, rule, by rw [ofCatalog, ruled], ruled, ?_⟩
  intro before context after placed message member finished unrivalled
  have quiet : context.review .all rule.formCount = [] := nothing context (by simp [placed])
  have live : message ∈ context.live := by
    refine List.mem_filter.mpr ⟨member, ?_⟩
    rw [Message.isLive, finished]
    rfl
  have distinct := (Context.nodup_of_reviewFrom rfl quiet).1
  obtain ⟨seen, harmless⟩ := Context.problems_of_reviewFrom quiet live
  refine serves_of_find? ?_ finished harmless
  rw [find?_eq_select? rfl rfl]
  exact Catalog.select?_eq_some placed distinct live finished unrivalled initially

/-- Two contexts of one name with the same source text: of the first the text
without a comment, of the second a plural one with a comment, of which one form is
empty. Both are served. -/
theorem finished_served_in_shared_context :
    ∃ translator, ofCatalog ⟨"2.0", some "pl", none,
        [⟨"A", [⟨[], "x", none, none, none, none, .singular "w", .obsolete⟩,
           ⟨[], "x", none, none, none, none, .singular "y", .finished⟩]⟩,
         ⟨"A", [⟨[], "x", some "c", none, none, none, .plural ["1", "", "5"], .finished⟩]⟩]⟩
        true = .ok translator ∧
      translator.lookup "A" "x" none = "y" ∧
      translator.lookupPlural "A" "x" (some "c") 22 = "x" ∧
      translator.lookupPlural "A" "x" (some "c") 12 = "5" := by
  have clean : Catalog.review .all ⟨"2.0", some "pl", none,
      [⟨"A", [⟨[], "x", none, none, none, none, .singular "w", .obsolete⟩,
         ⟨[], "x", none, none, none, none, .singular "y", .finished⟩]⟩,
       ⟨"A", [⟨[], "x", some "c", none, none, none, .plural ["1", "", "5"], .finished⟩]⟩]⟩ =
      .ok [] := rfl
  obtain ⟨translator, rule, made, ruled, serves⟩ := finished_are_served clean true
  have polish : rule = .polish := (Except.ok.inj ruled).symm
  subst polish
  have first := serves [] _ _ rfl ⟨[], "x", none, none, none, none, .singular "y", .finished⟩
    (by decide) rfl (by simp [Catalog.Unrivalled])
  have second := serves [_] _ [] rfl
    ⟨[], "x", some "c", none, none, none, .plural ["1", "", "5"], .finished⟩ (by decide) rfl
    (by simp [Catalog.Unrivalled, Context.live, Message.isLive, Status.isLive, Message.key,
      Message.commentOrEmpty])
  refine ⟨translator, made, first, ?_, ?_⟩
  · obtain ⟨form, there, shows⟩ := second 22
    rw [shows, ← Option.some.inj there]
    rfl
  · obtain ⟨form, there, shows⟩ := second 12
    rw [shows, ← Option.some.inj there]
    rfl

/-- A clean review alone does not do: the unfinished text of the first context of a
name answers in place of the finished one of the second. -/
theorem later_context_is_shadowed :
    ¬ ∀ catalog : Catalog, catalog.review .all = .ok [] →
      ∃ translator rule, ofCatalog catalog true = .ok translator ∧
        catalog.pluralRule = .ok rule ∧
        ∀ context ∈ catalog.contexts, ∀ message ∈ context.messages,
          message.status = .finished → translator.Serves rule context.name message := by
  intro claimed
  obtain ⟨translator, rule, made, _, serves⟩ := claimed
    ⟨"2.0", some "de", none,
      [⟨"A", [⟨[], "x", none, none, none, none, .singular "draft", .unfinished⟩]⟩,
       ⟨"A", [⟨[], "x", none, none, none, none, .singular "final", .finished⟩]⟩]⟩ rfl
  have final : translator.lookup "A" "x" none = "final" :=
    serves ⟨"A", [⟨[], "x", none, none, none, none, .singular "final", .finished⟩]⟩
      (by decide) ⟨[], "x", none, none, none, none, .singular "final", .finished⟩ (by decide) rfl
  have draft : translator.lookup "A" "x" none = "draft" := by
    rw [← Except.ok.inj made, lookup, find?_eq_select? rfl rfl]
    rfl
  rw [draft] at final
  contradiction

end Translator

end MessageCatalog
