import Mathlib.Data.List.Basic
import MessageCatalog.Translator

/-!
# Lookup through the index

The index of a translator holds for each context name and source text the
positions of exactly the live messages that have them, in file order and over
all contexts of that name. So looking up through the index finds what a linear
scan of the catalog finds, and every position in the index leads to a message.
-/

namespace MessageCatalog

namespace Catalog

/-- All messages in contexts of some name, in file order. -/
def messagesIn (catalog : Catalog) (name : String) : List Message :=
  (catalog.contexts.filter (·.name == name)).flatMap Context.messages

/-- The first message of a context name and a source text that is live, has the
comment, and is finished unless unfinished ones are included. -/
def scan? (catalog : Catalog) (includeUnfinished : Bool) (context source comment : String) :
    Option Message :=
  (catalog.messagesIn context).find? fun message =>
    message.isLive && message.source == source && message.commentOrEmpty == comment &&
      (includeUnfinished || message.status == .finished)

/-- The message that answers for a source text: one with the wanted comment, or
else, if a comment is wanted, one without. -/
def select? (catalog : Catalog) (includeUnfinished : Bool) (context source : String)
    (comment : Option String) : Option Message :=
  match catalog.scan? includeUnfinished context source (comment.getD "") with
  | some message => some message
  | none =>
    if comment.getD "" = "" then none else catalog.scan? includeUnfinished context source ""

/-- Every live message with the key it is looked up by, in file order. -/
def liveEntries (catalog : Catalog) : List ((String × String) × Message) :=
  catalog.contexts.flatMap fun context =>
    context.live.map fun message => ((context.name, message.source), message)

/-! ## The index -/

/-- Adding positions puts those of a key behind the ones it has already. -/
theorem getD_foldl_addPosition (entries : List ((String × String) × MessagePosition))
    (before : MessageIndex) (key : String × String) :
    (entries.foldl addPosition before).getD key #[] =
      before.getD key #[] ++ ((entries.filter (·.1 == key)).map Prod.snd).toArray := by
  induction entries generalizing before with
  | nil => simp
  | cons entry rest ih =>
    rw [List.foldl_cons, ih, addPosition, Std.HashMap.getD_insert]
    by_cases own : entry.1 = key
    · subst own
      simp
    · simp [own]

/-- The index holds the positions of a key in file order. -/
theorem getD_index (catalog : Catalog) (key : String × String) :
    catalog.index.getD key #[] =
      ((catalog.livePositions.filter (·.1 == key)).map Prod.snd).toArray := by
  rw [index, getD_foldl_addPosition, Std.HashMap.getD_empty, Array.empty_append]

/-- The live messages of one context are at the positions that are taken of them. -/
theorem map_messageAt?_context {catalog : Catalog} {context : Context} {i : Nat}
    (found : catalog.contexts[i]? = some context) :
    ((context.messages.zipIdx.filter (·.1.isLive)).map fun entry =>
        ((context.name, entry.1.source), catalog.messageAt? (i, entry.2))) =
      context.live.map fun message => ((context.name, message.source), some message) := by
  have at_position (entry : Message × Nat)
      (member : entry ∈ context.messages.zipIdx.filter (·.1.isLive)) :
      catalog.messageAt? (i, entry.2) = some entry.1 := by
    have here := List.mem_zipIdx_iff_getElem?.mp (List.mem_of_mem_filter member)
    rw [messageAt?, found]
    exact here
  have live : (context.messages.zipIdx.filter (·.1.isLive)).map Prod.fst = context.live := by
    rw [Context.live, ← List.zipIdx_map_fst 0 context.messages, List.filter_map]
    simp [Function.comp_def]
  rw [← live, List.map_map]
  refine List.map_congr_left fun entry member => ?_
  rw [at_position entry member]
  rfl

/-- Every position in a catalog's list is that of its live message. -/
theorem map_messageAt?_livePositions (catalog : Catalog) :
    catalog.livePositions.map (fun entry => (entry.1, catalog.messageAt? entry.2)) =
      catalog.liveEntries.map fun entry => (entry.1, some entry.2) := by
  rw [livePositions, liveEntries, List.map_flatMap, List.map_flatMap,
    ← List.zipIdx_map_fst 0 catalog.contexts, List.flatMap_map, List.zipIdx_map_fst]
  refine List.flatMap_congr fun entry member => ?_
  have found := List.mem_zipIdx_iff_getElem?.mp member
  have same := map_messageAt?_context found
  simpa [Function.comp_def] using same

/-- The live messages of a key, by the positions taken of them. -/
theorem filterMap_messageAt? (catalog : Catalog) (key : String × String) :
    ((catalog.livePositions.filter (·.1 == key)).map Prod.snd).filterMap catalog.messageAt? =
      (catalog.liveEntries.filter (·.1 == key)).map Prod.snd := by
  have same := congrArg
    (fun entries => ((entries.filter (·.1 == key)).map Prod.snd).filterMap id)
    (map_messageAt?_livePositions catalog)
  simpa [List.filter_map, List.filterMap_map, Function.comp_def] using same

/-- The live messages of a key are those that a scan of the contexts meets. -/
theorem map_liveEntries (catalog : Catalog) (context source : String) :
    (catalog.liveEntries.filter (·.1 == (context, source))).map Prod.snd =
      (catalog.messagesIn context).filter fun message =>
        message.isLive && message.source == source := by
  unfold liveEntries messagesIn
  induction catalog.contexts with
  | nil => rfl
  | cons first rest ih =>
    rw [List.flatMap_cons, List.filter_append, List.map_append, ih, List.filter_cons]
    by_cases own : first.name = context
    · have by_source (text : String) :
          ((context, text) == (context, source)) = (text == source) := by
        rw [Bool.eq_iff_iff]
        simp
      simp [own, by_source, Context.live, List.filter_map, Function.comp_def, List.filter_filter,
        Bool.and_comm]
    · simp [own, List.filter_map, Function.comp_def]

/-- A position in the list of a catalog leads to a message. -/
theorem isSome_messageAt? {catalog : Catalog} {entry : (String × String) × MessagePosition}
    (member : entry ∈ catalog.livePositions) : (catalog.messageAt? entry.2).isSome := by
  have there : (entry.1, catalog.messageAt? entry.2) ∈
      catalog.liveEntries.map fun entry => (entry.1, some entry.2) := by
    rw [← map_messageAt?_livePositions]
    exact List.mem_map_of_mem member
  obtain ⟨found, _, same⟩ := List.mem_map.mp there
  rw [← (Prod.mk.inj same).2]
  rfl

/-- Every position in the index leads to a message. -/
theorem isSome_messageAt?_index {catalog : Catalog} {key : String × String}
    {positions : Array MessagePosition} (stored : catalog.index[key]? = some positions)
    {position : MessagePosition} (member : position ∈ positions) :
    (catalog.messageAt? position).isSome := by
  have all : positions = ((catalog.livePositions.filter (·.1 == key)).map Prod.snd).toArray := by
    rw [← getD_index, Std.HashMap.getD_eq_getD_getElem?, stored]
    rfl
  rw [all, List.mem_toArray] at member
  obtain ⟨entry, kept, rfl⟩ := List.mem_map.mp member
  exact isSome_messageAt? (List.mem_of_mem_filter kept)

end Catalog

namespace Translator

/-- A text to show for a source text: the source text itself if there is none or
an empty one. -/
def shown (source : String) : Option String → String
  | some text => if text = "" then source else text
  | none => source

/-- The source text is fallen back on for missing and for empty texts. -/
theorem orSource_eq_shown (source : String) (text : Option String) :
    orSource source text = shown source text := by
  cases text with
  | none => rfl
  | some text =>
    unfold orSource shown
    by_cases empty : text = ""
    · subst empty
      rfl
    · simp [empty, Option.filter]

variable {translator : Translator} {catalog : Catalog}

/-- The candidates for a key are the live messages that a scan meets. -/
theorem candidates_eq_filter (own : translator.catalog = catalog)
    (indexed : translator.index = catalog.index) (context source : String) :
    translator.candidates context source =
      (catalog.messagesIn context).filter fun message =>
        message.isLive && message.source == source := by
  rw [candidates, own, indexed, Catalog.getD_index, Catalog.filterMap_messageAt?,
    Catalog.map_liveEntries]

/-- The first usable candidate is the first message that a scan accepts. -/
theorem firstUsable?_eq_scan? (own : translator.catalog = catalog)
    (indexed : translator.index = catalog.index) (context source comment : String) :
    translator.firstUsable? comment (translator.candidates context source) =
      catalog.scan? translator.includeUnfinished context source comment := by
  rw [candidates_eq_filter own indexed, firstUsable?, Catalog.scan?, List.find?_filter]
  congr 1
  funext message
  rw [Bool.eq_iff_iff]
  simp [isUsable, and_assoc]

/-- Looking up finds the message that a scan selects. -/
theorem find?_eq_select? (own : translator.catalog = catalog)
    (indexed : translator.index = catalog.index) (context source : String)
    (comment : Option String) :
    translator.find? context source comment =
      catalog.select? translator.includeUnfinished context source comment := by
  unfold find? Catalog.select?
  simp only [firstUsable?_eq_scan? own indexed]
  cases catalog.scan? translator.includeUnfinished context source (comment.getD "") with
  | some message => rfl
  | none => simp

/-- Indexed lookup is a linear scan. A catalog with a language that is one, or with
none, has a translator. Whether or not unfinished translations are included, it
shows what the first suitable message of the catalog says, with the form that
the catalog's rule gives for a count, and the source text if there is none. No
position of its index leads out of the catalog. -/
theorem lookup_eq_scan (catalog : Catalog) (initially : Bool)
    (valid : ∀ tag, catalog.language = some tag → ∃ rule, PluralRule.ofLanguage tag = .ok rule) :
    ∃ translator rule, ofCatalog catalog initially = .ok translator ∧
      catalog.pluralRule = .ok rule ∧
      (∀ includeUnfinished context source comment,
        (translator.withUnfinished includeUnfinished).lookup context source comment =
          shown source ((catalog.select? includeUnfinished context source comment).bind
            fun message => message.translation.texts.head?)) ∧
      (∀ includeUnfinished context source comment count,
        (translator.withUnfinished includeUnfinished).lookupPlural context source comment count =
          shown source ((catalog.select? includeUnfinished context source comment).bind
            fun message =>
              match message.translation with
              | .singular text => some text
              | .plural forms => forms[rule.formIndex count]?)) ∧
      ∀ (key : String × String) (positions : Array MessagePosition),
        translator.index[key]? = some positions →
          ∀ position ∈ positions, (translator.catalog.messageAt? position).isSome := by
  have ruled : ∃ rule, catalog.pluralRule = .ok rule := by
    unfold Catalog.pluralRule
    cases tagged : catalog.language with
    | none => exact ⟨.oneOther, rfl⟩
    | some tag =>
      obtain ⟨rule, found⟩ := valid tag tagged
      exact ⟨rule, by simp [pluralRuleOf, found]⟩
  obtain ⟨rule, ruled⟩ := ruled
  refine ⟨⟨catalog, rule, catalog.index, initially⟩, rule, by rw [ofCatalog, ruled], ruled,
    ?_, ?_, ?_⟩
  · intro includeUnfinished context source comment
    rw [lookup, orSource_eq_shown, find?_eq_select? rfl rfl]
    rfl
  · intro includeUnfinished context source comment count
    rw [lookupPlural, orSource_eq_shown, find?_eq_select? rfl rfl]
    rfl
  · intro key positions stored position member
    exact Catalog.isSome_messageAt?_index stored member

/-- A message is found in the second context of a name, without the comment that is
wanted, behind one that is no longer used. -/
theorem lookup_repeated_context :
    ∃ translator, ofCatalog ⟨"2.0", some "de", none,
        [⟨"A", [⟨[], "x", none, none, none, none, .singular "y", .obsolete⟩]⟩,
         ⟨"A", [⟨[], "x", some "", none, none, none, .plural ["z"], .finished⟩]⟩]⟩ true =
          .ok translator ∧
      (translator.withUnfinished false).lookup "A" "x" (some "c") = "z" := by
  obtain ⟨translator, _, made, _, lookup, _⟩ := lookup_eq_scan
    ⟨"2.0", some "de", none,
      [⟨"A", [⟨[], "x", none, none, none, none, .singular "y", .obsolete⟩]⟩,
       ⟨"A", [⟨[], "x", some "", none, none, none, .plural ["z"], .finished⟩]⟩]⟩ true
    (fun tag same => ⟨.oneOther, by
      injection same with same
      rw [← same]
      rfl⟩)
  refine ⟨translator, made, ?_⟩
  rw [lookup]
  rfl

end Translator

end MessageCatalog
