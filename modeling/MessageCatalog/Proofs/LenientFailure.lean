import MessageCatalog.Proofs.ElementFaults
import MessageCatalog.Proofs.Utf8Text

/-!
# When the lenient policy fails

Under the lenient policy a document fails for its encoding, for markup that is not
well formed, or for a part of it that the catalog is read from and that cannot be
read. There is no other reason: irregularities never count, and nothing inside
an element that is passed over does.
-/

namespace MessageCatalog

/-! ## Documents that are well formed -/

namespace Cursor

/-- The cursor at which reading ends. -/
def last (cursor : Cursor) : Cursor :=
  match _read : cursor.next with
  | .event _ _ after => last after
  | .finished _ | .fault _ _ => cursor
termination_by cursor.size
decreasing_by exact next_size_lt _read

/-- An event does not change where reading ends. -/
theorem last_of_event {cursor after : Cursor} {offset : Nat} {event : MarkupEvent}
    (h : cursor.next = .event offset event after) : cursor.last = after.last := by
  rw [last]
  split
  next equation =>
    rw [h] at equation
    injection equation with _ _ same
    rw [same]
  next equation => simp [h] at equation
  next equation => simp [h] at equation

/-- The events are nested when no element is open where reading ends. -/
theorem nested_iff_last {cursor : Cursor} (sound : cursor.Sound) :
    Nested cursor.opened.length (cursor.events.map Prod.snd) ↔ cursor.last.opened = [] := by
  induction cursor using induction_next with
  | event cursor offset event after found ih =>
    obtain ⟨opens, sound'⟩ := tracks_of_event sound found
    rw [events_of_event found, last_of_event found, ← ih sound', List.map_cons]
    cases event with
    | start tag =>
      rw [show after.opened = tag.name :: cursor.opened from opens]
      rfl
    | stop =>
      obtain ⟨name, opened⟩ := opens
      rw [opened, List.length_cons]
      exact ⟨fun h => h.2, fun h => ⟨Nat.succ_pos _, h⟩⟩
    | text | data | declaration | remark =>
      rw [show after.opened = cursor.opened from opens]
      rfl
  | finished cursor offset found =>
    have still : cursor.last = cursor := by
      rw [last]
      split <;> simp_all
    rw [(events_of_finished found).1, still]
    exact List.length_eq_zero_iff
  | fault cursor offset reason found =>
    have still : cursor.last = cursor := by
      rw [last]
      split <;> simp_all
    rw [(events_of_fault found).1, still]
    exact List.length_eq_zero_iff

end Cursor

/-! ## Documents whose elements spoil nothing -/

namespace Node

/-- A document that is well formed cannot be read. -/
inductive Fatal (forest : List Node) : Prop
  /-- A declaration outside of every element names an encoding other than UTF-8. -/
  | encoding {attributes label : List Char} (part : declaration attributes ∈ forest)
    (named : Tag.firstValue? "encoding".toList 3 attributes = some label)
    (other : String.ofList (label.map Char.toLower) ∉ ["utf-8", "utf8"])
  /-- An element with a role spoils the catalog. -/
  | element {role : Role} {tag : Tag} {children : List Node}
    (reads : Reads forest role tag children) (spoils : Spoils role tag children)
  /-- There is no root element. -/
  | rootless (none : named "TS" forest = [])

/-- What is not the root element hides no element with a role. -/
theorem Reads.cons_of_other {node : Node} {rest children : List Node} {role : Role} {tag : Tag}
    (other : asElement? "TS" node = none) (h : Reads rest role tag children) :
    Reads (node :: rest) role tag children := by
  have same : named "TS" (node :: rest) = named "TS" rest := by
    rw [named, List.filterMap_cons_none other, named]
  cases h with
  | root first => exact .root (same ▸ first)
  | inside first holds => exact .inside (same ▸ first) holds

end Node

namespace Reader

namespace Place

/-- The encoding of a declaration is accepted unless it is another than UTF-8. -/
theorem checkEncoding_ok_iff {attributes : List Char} :
    (∃ result, (checkEncoding attributes).outcome = .ok result) ↔
      ∀ label, Tag.firstValue? "encoding".toList 3 attributes = some label →
        String.ofList (label.map Char.toLower) ∈ ["utf-8", "utf8"] := by
  unfold checkEncoding
  cases Tag.firstValue? "encoding".toList 3 attributes with
  | none => exact iff_of_true ⟨(), rfl⟩ (fun label same => absurd same (by simp))
  | some value =>
    simp only [Option.some.injEq, forall_eq', List.mem_cons, List.not_mem_nil, or_false]
    split
    next accepted => exact iff_of_true ⟨(), rfl⟩ accepted
    next refused => exact iff_of_false (by simp) refused

/-- Character data can always be taken. -/
theorem takeData_ok (place : Place) (content : List Char) :
    ∃ next, (place.takeData content).outcome = .ok next := by
  unfold takeData
  split <;> exact ⟨_, rfl⟩

/-- A declaration can be taken outside of every element if its encoding is
accepted, and inside of any. -/
theorem takeDeclaration_ok {place : Place} {attributes : List Char}
    (accepted : place.roles = [] → ∃ result, (checkEncoding attributes).outcome = .ok result) :
    ∃ next, (place.takeDeclaration attributes).outcome = .ok next := by
  unfold takeDeclaration
  split
  · obtain ⟨result, checked⟩ := accepted rfl
    exact ⟨_, Step.bind_outcome_eq_ok.mpr ⟨result, checked, rfl⟩⟩
  · exact ⟨_, rfl⟩

/-- Some parts can be taken if the first can be, and the others behind it. -/
theorem visitAll_cons_ok {place : Place} {node : Node} {rest : List Node}
    (first : ∃ next, (place.visit node).outcome = .ok next)
    (more : ∀ next, (place.visit node).outcome = .ok next →
      ∃ final, (next.visitAll rest).outcome = .ok final) :
    ∃ final, (place.visitAll (node :: rest)).outcome = .ok final := by
  obtain ⟨next, taken⟩ := first
  obtain ⟨final, through⟩ := more next taken
  exact ⟨final, visitAll_cons_eq_ok.mpr ⟨next, taken, through⟩⟩

mutual

/-- A part of an element can be taken if it is no text that counts and cannot be
resolved, and if no element in it spoils anything. -/
theorem visit_ok {place : Place} {top : Role} (head : place.roles.head? = some top) {node : Node}
    (resolved : ∀ run, node = .text run → top.isText = true →
      ∃ plain, Entity.unescape run = .ok plain)
    (fine : ∀ {role tag children}, Node.Holds top [node] role tag children →
      ¬Node.Spoils role tag children) :
    ∃ next, (place.visit node).outcome = .ok next := by
  match node with
  | .text run => exact (takeText_ok_iff head).mpr (resolved run rfl)
  | .data content => exact takeData_ok place content
  | .declaration attributes =>
    exact takeDeclaration_ok fun outside => absurd head (by simp [outside])
  | .remark => exact ⟨place, rfl⟩
  | .element tag children =>
    have own : ¬Node.Spoils (top.inside tag) tag children := fine (.here List.mem_cons_self)
    obtain ⟨inner, entered⟩ := (enter_ok_iff head).mpr (Node.admits_of_not_spoils own)
    obtain ⟨last, through⟩ := visitAll_ok (head_of_enter head entered)
      (fun run part counts => by
        cases read : Entity.unescape run with
        | ok plain => exact ⟨plain, rfl⟩
        | error fault => exact absurd (.entity counts part read) own)
      (fun holds => fine (.deeper List.mem_cons_self holds))
    obtain ⟨next, left, _⟩ := leave_eq_ok last
    exact ⟨next, visit_element_eq_ok.mpr ⟨inner, entered, last, through, left⟩⟩

/-- Some parts of an element can be taken if none is a text that counts and cannot
be resolved, and if no element in them spoils anything. -/
theorem visitAll_ok {place : Place} {top : Role} (head : place.roles.head? = some top)
    {nodes : List Node}
    (resolved : ∀ run, .text run ∈ nodes → top.isText = true →
      ∃ plain, Entity.unescape run = .ok plain)
    (fine : ∀ {role tag children}, Node.Holds top nodes role tag children →
      ¬Node.Spoils role tag children) :
    ∃ final, (place.visitAll nodes).outcome = .ok final := by
  match nodes with
  | [] => exact ⟨place, rfl⟩
  | node :: rest =>
    refine visitAll_cons_ok ?_ fun next first => ?_
    · exact visit_ok head (fun run same => resolved run (same ▸ List.mem_cons_self))
        (fun holds => fine (holds.mono (List.cons_subset_cons node (List.nil_subset rest))))
    · exact visitAll_ok (by rw [visit_roles first]; exact head)
        (fun run part => resolved run (List.mem_cons_of_mem node part))
        (fun holds => fine (holds.mono (List.subset_cons_self node rest)))

end

/-- A part of a document outside of the root element can be taken if it does not
declare another encoding. -/
theorem visit_outside_ok {catalog : Option Catalog} {node : Node}
    (unexpected : ∀ tag children, node = .element tag children →
      (document catalog).enter tag = (document catalog).skipUnexpected tag)
    (accepted : ∀ attributes, node = .declaration attributes →
      ∃ result, (checkEncoding attributes).outcome = .ok result) :
    ∃ next, ((document catalog).visit node).outcome = .ok next := by
  cases node with
  | text run =>
    simp only [visit, takeText, expectLayout]
    split <;> exact ⟨_, rfl⟩
  | data content => exact takeData_ok _ content
  | declaration attributes => exact takeDeclaration_ok fun _ => accepted attributes rfl
  | remark => exact ⟨_, rfl⟩
  | element tag children =>
    refine ⟨document catalog, visit_element_eq_ok.mpr ⟨skipped (document catalog), ?_,
      skipped (document catalog), ?_, rfl⟩⟩
    · rw [unexpected tag children rfl]
      rfl
    · rw [visitAll_skipped]
      rfl

/-- What is behind the root element can be taken if it does not declare another
encoding. -/
theorem visitAll_behind_root_ok {catalog : Catalog} {forest : List Node}
    (accepted : ∀ attributes, .declaration attributes ∈ forest →
      ∃ result, (checkEncoding attributes).outcome = .ok result) :
    ∃ final, ((document (some catalog)).visitAll forest).outcome = .ok final := by
  induction forest with
  | nil => exact ⟨_, rfl⟩
  | cons node rest ih =>
    refine visitAll_cons_ok ?_ fun next first => ?_
    · exact visit_outside_ok (fun _ _ _ => rfl)
        (fun attributes same => accepted attributes (same ▸ List.mem_cons_self))
    · rw [visit_behind_root first]
      exact ih fun attributes part => accepted attributes (List.mem_cons_of_mem node part)

/-- A root element can be taken if neither it nor any element inside it spoils
anything. -/
theorem visit_root_ok {tag : Tag} {children : List Node} (name : String.ofList tag.name = "TS")
    (own : ¬Node.Spoils .root tag children)
    (fine : ∀ {role tag children'}, Node.Holds .root children role tag children' →
      ¬Node.Spoils role tag children') :
    ∃ next, ((document none).visit (.element tag children)).outcome = .ok next := by
  have start : (document none).enter tag = OpenCatalog.start tag := by
    simp only [enter, name]
  obtain ⟨inner, entered⟩ := OpenCatalog.start_ok_iff.mpr (Node.admits_of_not_spoils own)
  have inside : inner.roles.head? = some .root := by
    obtain ⟨_, _, rfl⟩ := OpenCatalog.start_eq_ok entered
    rfl
  obtain ⟨last, through⟩ := visitAll_ok inside
    (fun run _ counts => absurd counts (by simp [Role.isText])) fine
  obtain ⟨next, left, _⟩ := leave_eq_ok last
  exact ⟨next, visit_element_eq_ok.mpr ⟨inner, start ▸ entered, last, through, left⟩⟩

/-- A document can be taken if it declares no other encoding and if none of its
elements spoils anything. -/
theorem visitAll_document_ok {forest : List Node}
    (accepted : ∀ attributes, .declaration attributes ∈ forest →
      ∃ result, (checkEncoding attributes).outcome = .ok result)
    (fine : ∀ {role tag children}, Node.Reads forest role tag children →
      ¬Node.Spoils role tag children) :
    ∃ final, ((document none).visitAll forest).outcome = .ok final := by
  induction forest with
  | nil => exact ⟨_, rfl⟩
  | cons node rest ih =>
    have later : ∀ attributes, .declaration attributes ∈ rest →
        ∃ result, (checkEncoding attributes).outcome = .ok result :=
      fun attributes part => accepted attributes (List.mem_cons_of_mem node part)
    cases found : Node.asElement? "TS" node with
    | none =>
      refine visitAll_cons_ok ?_ fun next first => ?_
      · refine visit_outside_ok ?_
          (fun attributes same => accepted attributes (same ▸ List.mem_cons_self))
        rintro tag children rfl
        exact enter_document_of_other found
      · rw [visit_before_root found first]
        exact ih later fun reads => fine (reads.cons_of_other found)
    | some element =>
      obtain ⟨tag, children, rfl, name, rfl⟩ := Node.asElement?_eq_some found
      have head : (Node.named "TS" (.element tag children :: rest)).head? = some (tag, children) := by
        rw [Node.named, List.filterMap_cons_some found, List.head?_cons]
      refine visitAll_cons_ok ?_ fun next first => ?_
      · exact visit_root_ok name (fine (.root head)) (fun holds => fine (.inside head holds))
      · have ends : ∃ catalog, Node.catalog? (.element tag children :: rest) = some catalog ∧
            next = document (some catalog) := visit_rootElement name first
        obtain ⟨catalog, _, rfl⟩ := ends
        exact visitAll_behind_root_ok later

/-- A reader that has gone over a document has met no other encoding. -/
theorem accepted_of_visitAll {forest : List Node} {final : Place}
    (h : ((document none).visitAll forest).outcome = .ok final) {attributes : List Char}
    (part : .declaration attributes ∈ forest) :
    ∃ result, (checkEncoding attributes).outcome = .ok result := by
  obtain ⟨before, after, same, taken, _⟩ := visit_of_mem h part
  obtain ⟨catalog, rfl⟩ := eq_document_of_roles same
  obtain ⟨result, checked, _⟩ := Step.bind_outcome_eq_ok.mp taken
  exact ⟨result, checked⟩

/-- A reader that has gone over a document has met no element that spoils anything. -/
theorem not_spoils_of_visitAll {forest : List Node} {final : Place}
    (h : ((document none).visitAll forest).outcome = .ok final) {role : Role} {tag : Tag}
    {children : List Node} (reads : Node.Reads forest role tag children) :
    ¬Node.Spoils role tag children := by
  obtain ⟨outer, inner, last, entered, top, inside, _⟩ := covers_of_reads reads h
  refine Node.not_spoils_of_admits (admits_of_enter entered top) fun counts run part => ?_
  obtain ⟨before, after, same, taken, _⟩ := visit_of_mem inside part
  exact (takeText_ok_iff (same ▸ top)).mp ⟨after, taken⟩ counts

/-- The reader comes to the end of a document with a catalog exactly when the
document is not fatal. -/
theorem visitAll_catalog_iff {forest : List Node} :
    (∃ catalog, ((document none).visitAll forest).outcome = .ok (document (some catalog))) ↔
      ¬Node.Fatal forest := by
  constructor
  · rintro ⟨catalog, h⟩ (⟨part, named, other⟩ | ⟨reads, spoils⟩ | none)
    · exact other (checkEncoding_ok_iff.mp (accepted_of_visitAll h part) _ named)
    · exact not_spoils_of_visitAll h reads spoils
    · rcases visitAll_document h with ⟨_, same⟩ | ⟨found, read, _⟩
      · exact absurd same (by simp)
      · exact absurd read (by simp [Node.catalog?, none])
  · intro sound
    obtain ⟨final, h⟩ := visitAll_document_ok
      (fun attributes part => checkEncoding_ok_iff.mpr fun label named => by
        by_contra other
        exact sound (.encoding part named other))
      (fun reads spoils => sound (.element reads spoils))
    rcases visitAll_document h with ⟨none, _⟩ | ⟨catalog, _, rfl⟩
    · exact absurd (.rootless none) sound
    · exact ⟨catalog, h⟩

end Place

end Reader

namespace Report

/-- A document has content exactly when its markup is well formed and it is not fatal. -/
theorem contentOf_ok_iff {text : List Char} :
    (∃ catalog, contentOf text = .ok catalog) ↔
      (∃ offset, (Cursor.ofText text).ending = .ok offset) ∧ (Cursor.ofText text).last.opened = [] ∧
        ∀ forest, (eventsOf text).map Prod.snd = Node.forestEvents forest → ¬Node.Fatal forest := by
  have sound := Cursor.sound_ofText text
  have nested := Cursor.nested_iff_last sound
  constructor
  · rintro ⟨catalog, content⟩
    obtain ⟨reached, ended⟩ := contentOf_eq_ok content
    refine ⟨ended, nested.mp (Reader.Place.nested_of_reached sound rfl reached rfl), ?_⟩
    intro forest events
    obtain ⟨_, run⟩ := (contentOf_eq_ok_iff events).mp content
    exact Reader.Place.visitAll_catalog_iff.mp ⟨catalog, run⟩
  · rintro ⟨ended, closed, sane⟩
    obtain ⟨forest, events⟩ := (nested.mpr closed).exists_forest_zero
    obtain ⟨catalog, run⟩ := Reader.Place.visitAll_catalog_iff.mpr (sane forest events)
    exact ⟨catalog, (contentOf_eq_ok_iff events).mpr ⟨ended, run⟩⟩

/-- A text that the lenient policy cannot read. -/
inductive Unreadable (text : List Char) : Prop
  /-- There is a fault in the markup. -/
  | malformed {offset : Nat} {fault : MarkupFault}
    (ending : (Cursor.ofText text).ending = .error (offset, fault))
  /-- The document ends with an element still open. -/
  | unclosed (opened : (Cursor.ofText text).last.opened ≠ [])
  /-- The document is well formed, but fatal. -/
  | fatal {forest : List Node}
    (events : (eventsOf text).map Prod.snd = Node.forestEvents forest) (fatal : Node.Fatal forest)

/-- A text can be read, or there is a reason why not. -/
theorem contentOf_ok_iff_readable {text : List Char} :
    (∃ catalog, contentOf text = .ok catalog) ↔ ¬Unreadable text := by
  rw [contentOf_ok_iff]
  constructor
  · rintro ⟨⟨offset, ended⟩, closed, sane⟩ (⟨ending⟩ | ⟨opened⟩ | ⟨events, fatal⟩)
    · rw [ended] at ending
      exact absurd ending (by simp)
    · exact opened closed
    · exact sane _ events fatal
  · intro readable
    refine ⟨?_, ?_, fun forest events fatal => readable (.fatal events fatal)⟩
    · cases ended : (Cursor.ofText text).ending with
      | ok offset => exact ⟨offset, rfl⟩
      | error entry => exact absurd (.malformed ended) readable
    · by_contra opened
      exact readable (.unclosed opened)

/-- The lenient policy refuses a text exactly when it cannot be read. -/
theorem ofText_lenient_fails_iff {text : String} :
    (∃ fault, ofText .lenient text = .error fault) ↔
      Unreadable (withoutByteOrderMark text.toList) := by
  rw [← not_iff_not, ← contentOf_ok_iff_readable, ofText, ofChars_lenient]
  cases contentOf (withoutByteOrderMark text.toList) <;> simp

/-- The lenient policy fails for the fatal reasons only, and for each of them: the
bytes are no UTF-8, or they encode a text that cannot be read. -/
theorem lenient_fails_iff (bytes : ByteArray) :
    (∃ fault, ofBytes .lenient bytes = .error fault) ↔
      ¬bytes.IsValidUTF8 ∨
        ∃ text : String, text.toUTF8 = bytes ∧ Unreadable (withoutByteOrderMark text.toList) := by
  by_cases valid : bytes.IsValidUTF8
  · obtain ⟨text, encoded⟩ := Utf8.exists_text_of_valid valid
    have only (other : String) : other.toUTF8 = bytes ↔ other = text := by
      rw [← encoded]
      exact String.toByteArray_inj
    rw [ofBytes, Utf8.decode_eq_ok_iff.mpr encoded]
    simp only [valid, not_true_eq_false, false_or, only, exists_eq_left, ofText_lenient_fails_iff]
  · rw [ofBytes, Utf8.decode_of_not_valid valid]
    exact iff_of_true ⟨_, rfl⟩ (.inl valid)

end Report

end MessageCatalog
