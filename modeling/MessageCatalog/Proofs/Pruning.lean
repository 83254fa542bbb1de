import MessageCatalog.CatalogReview
import MessageCatalog.Catalog
import MessageCatalog.Proofs.TranslatorAnswers

/-!
# Pruning

Pruning takes away what nothing but the file itself knows of. Whatever is put
together from the live messages of each context in turn is the same before and
after: the answers of a translator, the findings of a review, and the counts of
finished and unfinished messages.
-/

namespace MessageCatalog

namespace Context

/-- The context with its live messages only. -/
def pruned (context : Context) : Context := { context with messages := context.live }

/-- What is left is live. -/
@[simp]
theorem live_pruned (context : Context) : context.pruned.live = context.live := by
  rw [live, pruned, live, List.filter_filter]
  simp only [Bool.and_self]

end Context

namespace Catalog

variable {α : Type}

/-- The contexts of a pruned catalog. -/
theorem contexts_pruned (catalog : Catalog) :
    catalog.pruned.contexts =
      (catalog.contexts.map Context.pruned).filter (!·.messages.isEmpty) := rfl

/-- What is collected from contexts is the same of a pruned catalog if it is the same
of pruned contexts and empty ones give nothing. -/
theorem flatMap_pruned {collect : Context → List α}
    (ofPruned : ∀ context, collect context.pruned = collect context)
    (ofEmpty : ∀ name, collect ⟨name, []⟩ = []) (catalog : Catalog) :
    catalog.pruned.contexts.flatMap collect = catalog.contexts.flatMap collect := by
  rw [contexts_pruned]
  induction catalog.contexts with
  | nil => rfl
  | cons context rest ih =>
    rw [List.map_cons, List.flatMap_cons, ← ih, ← ofPruned context]
    cases left : context.pruned.messages with
    | nil =>
      have nothing : collect context.pruned = [] := by
        have bare : context.pruned = ⟨context.name, []⟩ := by
          rw [← left]
          rfl
        rw [bare, ofEmpty]
      rw [List.filter_cons_of_neg (by simp [left]), nothing, List.nil_append]
    | cons message messages =>
      rw [List.filter_cons_of_pos (by simp [left]), List.flatMap_cons]

/-- A pruned catalog has nothing to prune. -/
theorem pruned_pruned (catalog : Catalog) : catalog.pruned.pruned = catalog.pruned := by
  have kept : catalog.pruned.contexts.map Context.pruned = catalog.pruned.contexts := by
    refine (List.map_congr_left fun context member => ?_).trans (List.map_id _)
    rw [contexts_pruned] at member
    obtain ⟨original, _, rfl⟩ := List.mem_map.mp (List.mem_filter.mp member).1
    rw [Context.pruned, Context.live_pruned]
    rfl
  have contexts : catalog.pruned.pruned.contexts = catalog.pruned.contexts := by
    rw [contexts_pruned, kept, contexts_pruned, List.filter_filter]
    simp only [Bool.and_self]
  exact congrArg (fun contexts => { catalog with contexts }) contexts

/-- A pruned catalog has the same live messages. -/
theorem liveEntries_pruned (catalog : Catalog) :
    catalog.pruned.liveEntries = catalog.liveEntries := by
  have ofPruned (context : Context) : context.pruned.liveEntries = context.liveEntries := by
    unfold Context.liveEntries
    rw [Context.live_pruned]
    rfl
  exact flatMap_pruned ofPruned (fun name => rfl) catalog

/-- Reviewing a pruned catalog finds the same. -/
theorem review_pruned (checks : Checks) (catalog : Catalog) :
    catalog.pruned.review checks = catalog.review checks := by
  have found (formCount : Nat) :
      catalog.pruned.contexts.flatMap (Context.review checks formCount) =
        catalog.contexts.flatMap (Context.review checks formCount) := by
    refine flatMap_pruned (fun context => ?_) (fun name => rfl) catalog
    rw [Context.review, Context.live_pruned]
    rfl
  have ruled : catalog.pruned.pluralRule = catalog.pluralRule := rfl
  rw [review, review, ruled]
  simp only [found]

/-- The messages of a pruned catalog are the live ones, in file order. -/
theorem messages_pruned (catalog : Catalog) :
    catalog.pruned.messages = catalog.messages.filter Message.isLive := by
  have allLive : catalog.pruned.messages = catalog.pruned.contexts.flatMap Context.live := by
    refine List.flatMap_congr fun context member => ?_
    rw [contexts_pruned] at member
    obtain ⟨original, _, rfl⟩ := List.mem_map.mp (List.mem_filter.mp member).1
    rw [Context.live_pruned]
    rfl
  rw [allLive, flatMap_pruned Context.live_pruned (fun _ => rfl), messages, List.filter_flatMap]
  rfl

/-- Messages of a status of live messages are as many in a pruned catalog. -/
theorem countP_status_pruned {status : Status} (isLive : status.isLive) (catalog : Catalog) :
    catalog.pruned.messages.countP (·.status == status) =
      catalog.messages.countP (·.status == status) := by
  rw [messages_pruned, List.countP_filter]
  refine List.countP_congr fun message _ => ?_
  simp only [Bool.and_eq_true, beq_iff_eq, and_iff_left_iff_imp]
  rintro rfl
  exact isLive

/-- Pruning goes unnoticed. A pruned catalog has a translator if and only if the
catalog has one, with the same answers or for the same reason; a review finds the
same; and as many messages are finished and unfinished, so it is as complete. -/
theorem pruned_unnoticed (catalog : Catalog) :
    (∀ initially, (Translator.ofCatalog catalog.pruned initially).map Translator.answers =
      (Translator.ofCatalog catalog initially).map Translator.answers) ∧
    (∀ checks, catalog.pruned.review checks = catalog.review checks) ∧
    catalog.pruned.tally.finished = catalog.tally.finished ∧
    catalog.pruned.tally.unfinished = catalog.tally.unfinished ∧
    catalog.pruned.tally.completeness = catalog.tally.completeness := by
  have finished : catalog.pruned.tally.finished = catalog.tally.finished :=
    countP_status_pruned rfl catalog
  have unfinished : catalog.pruned.tally.unfinished = catalog.tally.unfinished :=
    countP_status_pruned rfl catalog
  refine ⟨fun initially => ?_, fun checks => review_pruned checks catalog, finished, unfinished, ?_⟩
  · have ruled : catalog.pruned.pluralRule = catalog.pluralRule := rfl
    rw [Translator.map_answers_ofCatalog, Translator.map_answers_ofCatalog, ruled,
      select?_congr catalog.liveEntries_pruned]
  · rw [Tally.completeness, Tally.completeness, Tally.live, Tally.live, finished, unfinished]

end Catalog

end MessageCatalog
