import MessageCatalog.Proofs.ReaderSteps

/-!
# Forests of elements

The events of a document that can be read are those of a forest: every end
belongs to the last start that has none yet, and no start is left without one.
The forest is unique. It is the reading of the markup that does not know what
catalogs are.
-/

namespace MessageCatalog

/-- A part of a document with all that is inside it. -/
inductive Node where
  /-- A run of text, entities unresolved. -/
  | text (run : List Char)
  /-- A section of literal character data. -/
  | data (content : List Char)
  /-- The document's declaration, behind its name. -/
  | declaration (attributes : List Char)
  /-- A comment, a document type or a processing instruction. -/
  | remark
  /-- An element. -/
  | element (tag : Tag) (children : List Node)

namespace Node

mutual

/-- The events of a part of a document, its end included. -/
def events : Node → List MarkupEvent
  | text run => [.text run]
  | data content => [.data content]
  | declaration attributes => [.declaration attributes]
  | remark => [.remark]
  | element tag children => .start tag :: (forestEvents children ++ [.stop])

/-- The events of some parts, one behind the other. -/
def forestEvents : List Node → List MarkupEvent
  | [] => []
  | node :: rest => node.events ++ forestEvents rest

end

end Node

/-- Whether events close all the elements that they open, and `depth` more. -/
def Nested (depth : Nat) : List MarkupEvent → Prop
  | [] => depth = 0
  | .start _ :: rest => Nested (depth + 1) rest
  | .stop :: rest => 0 < depth ∧ Nested (depth - 1) rest
  | .text _ :: rest | .data _ :: rest | .declaration _ :: rest | .remark :: rest =>
    Nested depth rest

namespace Nested

/-- Nested events begin with a forest. What follows it is nothing at all, or the
end of an element from before. -/
theorem exists_forest {depth : Nat} {events : List MarkupEvent} (h : Nested depth events) :
    ∃ forest rest, events = Node.forestEvents forest ++ rest ∧
      ((depth = 0 ∧ rest = []) ∨
        ∃ after, rest = .stop :: after ∧ 0 < depth ∧ Nested (depth - 1) after) := by
  match events with
  | [] => exact ⟨[], [], rfl, .inl ⟨h, rfl⟩⟩
  | .stop :: after => exact ⟨[], .stop :: after, rfl, .inr ⟨after, rfl, h⟩⟩
  | .text run :: events =>
    obtain ⟨forest, rest, he, hr⟩ := exists_forest (show Nested depth events from h)
    exact ⟨.text run :: forest, rest, by rw [he]; rfl, hr⟩
  | .data content :: events =>
    obtain ⟨forest, rest, he, hr⟩ := exists_forest (show Nested depth events from h)
    exact ⟨.data content :: forest, rest, by rw [he]; rfl, hr⟩
  | .declaration attributes :: events =>
    obtain ⟨forest, rest, he, hr⟩ := exists_forest (show Nested depth events from h)
    exact ⟨.declaration attributes :: forest, rest, by rw [he]; rfl, hr⟩
  | .remark :: events =>
    obtain ⟨forest, rest, he, hr⟩ := exists_forest (show Nested depth events from h)
    exact ⟨.remark :: forest, rest, by rw [he]; rfl, hr⟩
  | .start tag :: events =>
    obtain ⟨children, rest, he, hr⟩ := exists_forest (show Nested (depth + 1) events from h)
    rcases hr with ⟨hz, _⟩ | ⟨after, ha, _, hn⟩
    · exact absurd hz (Nat.succ_ne_zero depth)
    · have shorter : after.length < events.length := by
        rw [he, ha, List.length_append, List.length_cons]
        omega
      obtain ⟨forest, rest', he', hr'⟩ := exists_forest (show Nested depth after from hn)
      refine ⟨.element tag children :: forest, rest', ?_, hr'⟩
      rw [he, ha, he']
      simp only [Node.forestEvents, Node.events, List.cons_append, List.append_assoc,
        List.nil_append]
termination_by events.length

/-- Events that close exactly what they open are those of a forest. -/
theorem exists_forest_zero {events : List MarkupEvent} (h : Nested 0 events) :
    ∃ forest, events = Node.forestEvents forest := by
  rcases h.exists_forest with ⟨forest, rest, he, ⟨_, hr⟩ | ⟨_, _, hz, _⟩⟩
  · rw [hr, List.append_nil] at he
    exact ⟨forest, he⟩
  · exact absurd hz (Nat.lt_irrefl 0)

end Nested

namespace Node

/-- What may stand behind a forest without being part of it: nothing, or the end
of an element. -/
def Closes : List MarkupEvent → Prop
  | [] => True
  | .stop :: _ => True
  | _ => False

mutual

/-- A part of a document can be told from its events and what stands behind. -/
theorem events_append_inj {node node' : Node} {rest rest' : List MarkupEvent}
    (h : node.events ++ rest = node'.events ++ rest') : node = node' ∧ rest = rest' := by
  match node, node' with
  | text _, text _ | data _, data _ | declaration _, declaration _ | remark, remark =>
    simp_all [events]
  | element tag children, element tag' children' =>
    simp only [events, List.cons_append, List.cons.injEq, MarkupEvent.start.injEq,
      List.append_assoc, List.nil_append] at h
    obtain ⟨ht, hc⟩ := h
    have closed (after : List MarkupEvent) : Closes (.stop :: after) := trivial
    obtain ⟨hf, hr⟩ := forestEvents_append_inj (closed rest) (closed rest') hc
    exact ⟨by rw [ht, hf], by simpa using hr⟩
  | text _, data _ | text _, declaration _ | text _, remark | text _, element _ _
  | data _, text _ | data _, declaration _ | data _, remark | data _, element _ _
  | declaration _, text _ | declaration _, data _ | declaration _, remark
  | declaration _, element _ _ | remark, text _ | remark, data _ | remark, declaration _
  | remark, element _ _ | element _ _, text _ | element _ _, data _
  | element _ _, declaration _ | element _ _, remark => simp [events] at h

/-- A forest can be told from its events and what stands behind. -/
theorem forestEvents_append_inj {forest forest' : List Node} {rest rest' : List MarkupEvent}
    (hr : Closes rest) (hr' : Closes rest')
    (h : forestEvents forest ++ rest = forestEvents forest' ++ rest') :
    forest = forest' ∧ rest = rest' := by
  match forest, forest' with
  | [], [] => exact ⟨rfl, h⟩
  | node :: nodes, node' :: nodes' =>
    simp only [forestEvents, List.append_assoc] at h
    obtain ⟨hn, ht⟩ := events_append_inj h
    obtain ⟨hf, hs⟩ := forestEvents_append_inj hr hr' ht
    exact ⟨by rw [hn, hf], hs⟩
  | [], node' :: nodes' =>
    simp only [forestEvents, List.nil_append] at h
    subst h
    cases node' <;> simp [events, Closes] at hr
  | node :: nodes, [] =>
    simp only [forestEvents, List.nil_append] at h
    subst h
    cases node <;> simp [events, Closes] at hr'

end

/-- No two forests have the same events. -/
theorem forestEvents_injective : Function.Injective forestEvents := by
  intro forest forest' h
  have closed : Closes [] := trivial
  have h' : forestEvents forest ++ [] = forestEvents forest' ++ [] := by rw [h]
  exact (forestEvents_append_inj closed closed h').1

end Node

end MessageCatalog
