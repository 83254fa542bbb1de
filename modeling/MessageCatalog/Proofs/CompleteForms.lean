import MessageCatalog.Proofs.CleanReview

/-!
# Complete plural translations

A plural rule takes every form that it counts, and no other. So a plural translation
with as many forms as the language takes has a form for every count, and none of its
forms is in vain. A review that finds no wrong number of forms says this of all live
messages, and then a lookup for a count shows the form of the count. It shows the source
text where that form is empty, and never because it is not there.
-/

namespace MessageCatalog

/-- One, two and five take all forms of every rule. -/
theorem PluralRule.exists_formIndex_eq (rule : PluralRule) :
    ∀ index < rule.formCount, ∃ count ∈ [1, 2, 5], rule.formIndex count = index := by
  cases rule <;> decide

/-- The form for a count that takes the first one is the text used without a count. -/
theorem Translation.formFor?_eq_text? {rule : PluralRule} {count : Nat}
    (first : rule.formIndex count = 0) (translation : Translation) :
    translation.formFor? rule count = translation.text? := by
  cases translation with
  | singular text => rfl
  | plural forms =>
    rw [formFor?, first, text?, texts]
    exact List.head?_eq_getElem?.symm

/-- Live plural translations have all their forms if a review that checks their number
finds no other one. -/
theorem Catalog.length_forms_of_review {catalog : Catalog} {checks : Checks}
    {findings : List Finding} {rule : PluralRule} (ruled : catalog.pluralRule = .ok rule)
    (looking : checks.numerusArity = true) (reviewed : catalog.review checks = .ok findings)
    (unfound : ∀ finding ∈ findings, ∀ expected found,
      finding.problem ≠ .numerusArity expected found)
    {context : Context} (inside : context ∈ catalog.contexts) {message : Message}
    (live : message ∈ context.live) {forms : List String}
    (translated : message.translation = .plural forms) : forms.length = rule.formCount := by
  rw [review_of_rule ruled] at reviewed
  obtain ⟨before, found⟩ : ∃ before, ∀ problem ∈ message.problems checks rule.formCount before,
      ⟨context.name, message.source, problem⟩ ∈ context.review checks rule.formCount :=
    Context.mem_reviewFrom live
  have unfound' : ∀ problem ∈ message.problems checks rule.formCount before,
      ∀ expected found, problem ≠ .numerusArity expected found := by
    intro problem own
    refine unfound ⟨context.name, message.source, problem⟩ ?_
    rw [← Except.ok.inj reviewed]
    exact List.mem_flatMap.mpr ⟨context, inside, found problem own⟩
  exact Message.length_forms_of_unfound looking unfound' translated

namespace Translator

/-- A count that takes the first form is answered as no count is. -/
theorem lookupPlural_eq_lookup {translator : Translator} {count : Nat}
    (first : translator.rule.formIndex count = 0) (context source : String)
    (comment : Option String) :
    translator.lookupPlural context source comment count =
      translator.lookup context source comment := by
  rw [lookupPlural, lookup]
  simp only [Translation.formFor?_eq_text? first]

/-- Complete plural translations are shown. Every count takes one of the forms that a rule
counts, and every form is taken by some count. If a review that checks the numbers of forms
finds no wrong one, the catalog has a translator, and whenever it selects a plural
translation, with or without unfinished ones, it shows the form of the count, or the source
text if that form is empty. A count that takes the first form is answered as no count is. -/
theorem complete_forms_are_shown :
    (∀ rule : PluralRule, (∀ count, rule.formIndex count < rule.formCount) ∧
      ∀ index < rule.formCount, ∃ count < UInt64.size, rule.formIndex count = index) ∧
    (∀ (catalog : Catalog) (checks : Checks) (findings : List Finding),
      checks.numerusArity = true → catalog.review checks = .ok findings →
      (∀ finding ∈ findings, ∀ expected found,
        finding.problem ≠ .numerusArity expected found) →
      ∀ initially, ∃ translator rule, ofCatalog catalog initially = .ok translator ∧
        catalog.pluralRule = .ok rule ∧
        ∀ includeUnfinished context source comment message forms,
          (translator.withUnfinished includeUnfinished).find? context source comment =
            some message →
          message.translation = .plural forms →
          ∀ count, ∃ form, forms[rule.formIndex count]? = some form ∧
            (translator.withUnfinished includeUnfinished).lookupPlural context source comment
              count = if form = "" then source else form) ∧
    ∀ (translator : Translator) (count : Nat), translator.rule.formIndex count = 0 →
      ∀ context source comment,
        translator.lookupPlural context source comment count =
          translator.lookup context source comment := by
  refine ⟨fun rule => ⟨rule.formIndex_lt, fun index small => ?_⟩, ?_, ?_⟩
  · obtain ⟨count, few, taken⟩ := rule.exists_formIndex_eq index small
    have bounded : ∀ count ∈ [1, 2, 5], count < UInt64.size := by decide
    exact ⟨count, bounded count few, taken⟩
  · intro catalog checks findings looking reviewed unfound initially
    obtain ⟨rule, ruled⟩ : ∃ rule, catalog.pluralRule = .ok rule := by
      cases ruled : catalog.pluralRule with
      | ok rule => exact ⟨rule, rfl⟩
      | error fault =>
        rw [Catalog.review, ruled] at reviewed
        contradiction
    refine ⟨⟨catalog, rule, catalog.index, initially⟩, rule, by rw [ofCatalog, ruled], ruled, ?_⟩
    intro includeUnfinished context source comment message forms found translated count
    have selected := found
    rw [find?_eq_select? rfl rfl] at selected
    obtain ⟨owner, inside, live⟩ := Catalog.mem_of_select? selected
    have complete := Catalog.length_forms_of_review ruled looking reviewed unfound inside live
      translated
    exact lookupPlural_of_complete found translated complete count
  · exact fun translator count first context source comment =>
      lookupPlural_eq_lookup first context source comment

/-- A Polish message with an empty second form is looked up behind a finished one of the
same source text without text. A review of the numbers of forms finds nothing; the count
twenty-two shows the source text, twelve the third form and one the first. -/
theorem polish_forms_are_shown :
    ∃ translator, ofCatalog ⟨"2.0", some "pl", none,
        [⟨"A", [⟨[], "x", none, none, none, none, .singular "", .finished⟩,
          ⟨[], "x", some "c", none, none, none, .plural ["1", "", "5"], .unfinished⟩]⟩]⟩
        false = .ok translator ∧
      (translator.withUnfinished true).lookupPlural "A" "x" (some "c") 22 = "x" ∧
      (translator.withUnfinished true).lookupPlural "A" "x" (some "c") 12 = "5" ∧
      (translator.withUnfinished true).lookupPlural "A" "x" (some "c") 1 =
        (translator.withUnfinished true).lookup "A" "x" (some "c") := by
  obtain ⟨_, shown, alike⟩ := complete_forms_are_shown
  obtain ⟨translator, rule, made, ruled, forms⟩ := shown
    ⟨"2.0", some "pl", none,
      [⟨"A", [⟨[], "x", none, none, none, none, .singular "", .finished⟩,
        ⟨[], "x", some "c", none, none, none, .plural ["1", "", "5"], .unfinished⟩]⟩]⟩
    ⟨true, false, false, true⟩ [⟨"A", "x", .emptyFinished⟩] rfl rfl (by simp) false
  have polish : rule = .polish := (Except.ok.inj ruled).symm
  subst polish
  have own := Except.ok.inj made
  have found : (translator.withUnfinished true).find? "A" "x" (some "c") =
      some ⟨[], "x", some "c", none, none, none, .plural ["1", "", "5"], .unfinished⟩ := by
    rw [← own, find?_eq_select? rfl rfl]
    rfl
  have shows := forms true "A" "x" (some "c") _ _ found rfl
  refine ⟨translator, made, ?_, ?_, ?_⟩
  · obtain ⟨form, there, shown⟩ := shows 22
    rw [shown, ← Option.some.inj there]
    rfl
  · obtain ⟨form, there, shown⟩ := shows 12
    rw [shown, ← Option.some.inj there]
    rfl
  · refine alike _ 1 ?_ "A" "x" (some "c")
    rw [← own]
    rfl

end Translator

end MessageCatalog
