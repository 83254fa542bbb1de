import Mathlib.Data.List.Infix

/-!
# Occurrences of tags

In a text where a bracket opens nothing but a tag, a pattern that opens with a bracket can
stand nowhere but at the front of a tag. So its occurrences in the text are counted on the
list of the tags.
-/

namespace MessageCatalog

/-- The number of places at which a pattern stands in a text. -/
def occurrences (pattern text : String) : Nat :=
  text.toList.tails.countP pattern.toList.isPrefixOf

/-- A text with its tags, each told by what stands between its brackets. No bracket opens
outside of tags or inside of one. -/
inductive Tagged : List Char → List (List Char) → Prop
  /-- No text. -/
  | nil : Tagged [] []
  /-- A character outside of tags. -/
  | char {c : Char} {text : List Char} {tags : List (List Char)} (outside : c ≠ '<')
    (behind : Tagged text tags) : Tagged (c :: text) tags
  /-- A tag. -/
  | tag {body text : List Char} {tags : List (List Char)} (inside : '<' ∉ body)
    (behind : Tagged text tags) : Tagged ('<' :: (body ++ '>' :: text)) (body :: tags)

/-- Whether a tag begins with a mark. The bracket that closes the tag counts. -/
def begins (mark body : List Char) : Bool := mark.isPrefixOf (body ++ ['>'])

/-- Neither of a mark and a name goes on from the other. -/
def Foreign (mark name : List Char) : Prop := ¬mark <+: name ∧ ¬name <+: mark

instance (mark name : List Char) : Decidable (Foreign mark name) :=
  inferInstanceAs (Decidable (¬mark <+: name ∧ ¬name <+: mark))

/-- A mark does not begin a tag whose name is foreign to it. -/
theorem begins_of_foreign {mark name : List Char} (foreign : Foreign mark name)
    (attributes : List Char) : begins mark (name ++ attributes) = false := by
  rw [← Bool.not_eq_true, begins, List.isPrefixOf_iff_prefix, List.append_assoc]
  intro marked
  rcases List.prefix_or_prefix_of_prefix marked (List.prefix_append name _) with first | second
  · exact foreign.1 first
  · exact foreign.2 second

/-- Whether a mark that goes on up to a closing bracket at most stands at the front of a tag
does not depend on what is behind the tag. -/
theorem isPrefixOf_tag {mark : List Char} (closed : '>' ∉ mark.dropLast)
    (body text : List Char) : mark.isPrefixOf (body ++ '>' :: text) = begins mark body := by
  have split : body ++ '>' :: text = (body ++ ['>']) ++ text := by simp
  rw [begins, Bool.eq_iff_iff, List.isPrefixOf_iff_prefix, List.isPrefixOf_iff_prefix, split]
  refine ⟨fun marked => ?_, fun marked => marked.trans (List.prefix_append _ _)⟩
  rcases List.prefix_or_prefix_of_prefix marked (List.prefix_append (body ++ ['>']) text) with
    within | ⟨more, rfl⟩
  · exact within
  · cases more with
    | nil => rw [List.append_nil]
    | cons c more =>
      refine absurd ?_ closed
      rw [List.dropLast_append_cons]
      simp

namespace Tagged

variable {mark text : List Char} {tags : List (List Char)}

/-- A run of characters outside of tags. -/
theorem run {run : List Char} (outside : '<' ∉ run) (behind : Tagged text tags) :
    Tagged (run ++ text) tags := by
  induction run with
  | nil => exact behind
  | cons c run ih =>
    exact .char (List.ne_of_not_mem_cons outside).symm (ih (List.not_mem_of_not_mem_cons outside))

/-- One text behind another. -/
theorem append {text' : List Char} {tags' : List (List Char)} (first : Tagged text tags)
    (second : Tagged text' tags') : Tagged (text ++ text') (tags ++ tags') := by
  induction first with
  | nil => exact second
  | char outside _ ih => exact .char outside ih
  | tag inside _ ih =>
    rw [List.cons_append, List.cons_append, List.append_assoc]
    exact .tag inside ih

/-- The texts of some items behind each other. -/
theorem flatMap {α : Type} {write : α → List Char} {list : α → List (List Char)}
    (each : ∀ item, Tagged (write item) (list item)) (items : List α) :
    Tagged (items.flatMap write) (items.flatMap list) := by
  induction items with
  | nil => exact nil
  | cons item rest ih => exact (each item).append ih

/-- A pattern that opens with a bracket does not stand where there are no brackets. -/
theorem countP_tails_run {run : List Char} (outside : '<' ∉ run) (text : List Char) :
    (run ++ text).tails.countP ('<' :: mark).isPrefixOf =
      text.tails.countP ('<' :: mark).isPrefixOf := by
  induction run with
  | nil => rfl
  | cons c run ih =>
    have here : ('<' :: mark).isPrefixOf (c :: (run ++ text)) = false := by
      have differs : ('<' == c) = false := beq_false_of_ne (List.ne_of_not_mem_cons outside)
      rw [List.isPrefixOf_cons_cons, differs, Bool.false_and]
    rw [List.cons_append, List.tails_cons, List.countP_cons_of_neg (by simp [here]),
      ih (List.not_mem_of_not_mem_cons outside)]

/-- A pattern that opens with a bracket stands where a tag begins with the rest of it. -/
theorem countP_tails (tagged : Tagged text tags) (closed : '>' ∉ mark.dropLast) :
    text.tails.countP ('<' :: mark).isPrefixOf = tags.countP (begins mark) := by
  induction tagged with
  | nil => rfl
  | @char c text _ outside _ ih =>
    have elsewhere : '<' ∉ [c] := by simpa using outside.symm
    rw [← ih, ← List.singleton_append]
    exact countP_tails_run elsewhere text
  | @tag body text _ inside _ ih =>
    have outside : '<' ∉ body ++ ['>'] := by simpa using inside
    have behind : (body ++ ['>'] ++ text).tails.countP ('<' :: mark).isPrefixOf =
        text.tails.countP ('<' :: mark).isPrefixOf := countP_tails_run outside text
    rw [List.append_assoc, List.singleton_append] at behind
    rw [List.tails_cons, List.countP_cons, List.countP_cons, behind, ih, List.isPrefixOf_cons_cons,
      isPrefixOf_tag closed]
    rfl

/-- So its occurrences are as many as there are such tags. -/
theorem occurrences_eq {pattern text : String} (tagged : Tagged text.toList tags)
    (opens : pattern.toList = '<' :: mark) (closed : '>' ∉ mark.dropLast) :
    occurrences pattern text = tags.countP (begins mark) := by
  rw [occurrences, opens]
  exact tagged.countP_tails closed

end Tagged

end MessageCatalog
