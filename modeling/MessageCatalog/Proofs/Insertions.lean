import MessageCatalog.Proofs.ContentText
import MessageCatalog.Proofs.ElementReading
import MessageCatalog.Proofs.StrayData
import MessageCatalog.Proofs.TruncatedDocument

/-!
# Insertions between elements

Between the parts of an element that holds elements only, white space and comments may be
put in without a trace, and an element that does not belong there leaves no more than the
note about it. What is in front of the new text and what is behind it is read as before:
the cursor reads it alike, and the reader stands behind the new text where it stood
before it.
-/

namespace MessageCatalog

/-- The names of the elements that belong into an element of some role that holds elements
only. -/
def Role.known : Role → List String
  | root => ["context"]
  | context => ["name", "message"]
  | message _ =>
    ["location", "source", "comment", "extracomment", "translatorcomment", "translation"]
  | translation true => ["numerusform"]
  | location | translation false | text | byte | passed => []

namespace Node

/-- A gap between the parts of an element, or between the parts of an element inside it,
however deep: the role of the element that the gap is directly inside of, and the events
in front of the gap. -/
inductive Gap : Role → List Node → Role → List MarkupEvent → Prop
  /-- The gap is between two of the parts, or in front of all or behind all. -/
  | here {role : Role} (before after : List Node) :
    Gap role (before ++ after) role (forestEvents before)
  /-- The gap is inside one of the parts. -/
  | deeper {role inner : Role} {tag : Tag} {children : List Node} {found : List MarkupEvent}
    (before after : List Node) (gap : Gap (role.inside tag) children inner found) :
    Gap role (before ++ element tag children :: after) inner
      (forestEvents before ++ .start tag :: found)

/-- A gap inside the first root element of a document. -/
inductive RootGap : List Node → Role → List MarkupEvent → Prop
  /-- No root element is in front of the one with the gap. -/
  | root {role : Role} {tag : Tag} {children : List Node} {found : List MarkupEvent}
    (before after : List Node) (first : named "TS" before = []) (name : String.ofList tag.name = "TS")
    (gap : Gap .root children role found) :
    RootGap (before ++ element tag children :: after) role (forestEvents before ++ .start tag :: found)

end Node

namespace Reader

namespace Place

/-- Parts behind each other are read one behind the other. -/
theorem visitAll_append (place : Place) (first second : List Node) :
    place.visitAll (first ++ second) = place.visitAll first >>= fun next => next.visitAll second := by
  induction first generalizing place with
  | nil => rw [List.nil_append, visitAll, pure_bind]
  | cons node rest ih => simp only [List.cons_append, visitAll, bind_assoc, ih]

/-- A reader that has gone over some parts was in front of the later ones. -/
theorem visitAll_append_eq_ok {place final : Place} {first second : List Node} :
    (place.visitAll (first ++ second)).outcome = .ok final ↔
      ∃ next, (place.visitAll first).outcome = .ok next ∧
        (next.visitAll second).outcome = .ok final := by
  rw [visitAll_append, Step.bind_outcome_eq_ok]

/-- A reader that has gone over an element was in each gap inside it, in the role of the
element that the gap is directly inside of. -/
theorem exists_in_gap {place final : Place} {top inner : Role} {nodes : List Node}
    {found : List MarkupEvent} (gap : Node.Gap top nodes inner found)
    (head : place.roles.head? = some top) (h : (place.visitAll nodes).outcome = .ok final) :
    ∃ between, (place.takeAll found).outcome = .ok between ∧ between.roles.head? = some inner := by
  induction gap generalizing place final with
  | here before after =>
    obtain ⟨next, taken, _⟩ := visitAll_append_eq_ok.mp h
    rw [takeAll_forestEvents]
    exact ⟨next, taken, by rw [visitAll_roles taken]; exact head⟩
  | deeper before after gap ih =>
    obtain ⟨next, taken, h⟩ := visitAll_append_eq_ok.mp h
    obtain ⟨_, element, _⟩ := visitAll_cons_eq_ok.mp h
    obtain ⟨inside, entered, last, through, _⟩ := visit_element_eq_ok.mp element
    have head' := (congrArg List.head? (visitAll_roles taken)).trans head
    obtain ⟨between, reached, role⟩ := ih (head_of_enter head' entered) through
    refine ⟨between, ?_, role⟩
    rw [takeAll_append, takeAll_forestEvents, Step.bind_outcome_eq_ok]
    refine ⟨next, taken, ?_⟩
    rw [takeAll, Step.bind_outcome_eq_ok]
    exact ⟨inside, entered, reached⟩

/-- A reader that has gone over a document was in each gap of it that has a role. -/
theorem exists_in_rootGap {forest : List Node} {role : Role} {found : List MarkupEvent}
    {final : Place} (gap : Node.RootGap forest role found)
    (h : ((document none).visitAll forest).outcome = .ok final) :
    ∃ between, ((document none).takeAll found).outcome = .ok between ∧
      between.roles.head? = some role := by
  obtain ⟨before, after, first, name, gap⟩ := gap
  obtain ⟨next, taken, h⟩ := visitAll_append_eq_ok.mp h
  obtain rfl : next = document none := by
    rcases visitAll_document taken with ⟨_, same⟩ | ⟨_, read, _⟩
    · exact same
    · exact absurd read (by simp [Node.catalog?, first])
  obtain ⟨_, element, _⟩ := visitAll_cons_eq_ok.mp h
  obtain ⟨inside, entered, last, through, _⟩ := visit_element_eq_ok.mp element
  have start : ∀ tag : Tag, String.ofList tag.name = "TS" →
      (document none).enter tag = OpenCatalog.start tag := by
    intro tag name
    simp only [enter, name]
  rw [start _ name] at entered
  obtain ⟨_, _, rfl⟩ := OpenCatalog.start_eq_ok entered
  obtain ⟨between, reached, role⟩ := exists_in_gap gap rfl through
  refine ⟨between, ?_, role⟩
  rw [takeAll_append, takeAll_forestEvents, Step.bind_outcome_eq_ok]
  refine ⟨_, taken, ?_⟩
  rw [takeAll, Step.bind_outcome_eq_ok]
  exact ⟨_, (congrArg Step.outcome (start _ name)).trans entered, reached⟩

/-- Between the parts of an element that holds elements only, text is layout, and an
element whose name does not belong there is unexpected. -/
theorem between_parts {place : Place} {role : Role} {parent : String}
    (top : place.roles.head? = some role) (between : role.between? = some parent) :
    place.element = parent ∧ (∀ run, place.takeText run = place.expectLayout run) ∧
      ∀ tag : Tag, String.ofList tag.name ∉ role.known →
        place.enter tag = place.skipUnexpected tag := by
  cases place with
  | document => exact absurd top (by simp [roles])
  | root | context | message | forms =>
    obtain rfl : _ = role := by simpa [roles] using top
    obtain rfl : _ = parent := by simpa [Role.between?] using between
    refine ⟨rfl, fun _ => rfl, fun tag unknown => ?_⟩
    simp only [Role.known, List.mem_cons, List.not_mem_nil, or_false, not_or] at unknown
    unfold enter
    split <;> simp_all
  | location | byte | skipped =>
    obtain rfl : _ = role := by simpa [roles] using top
    exact absurd between (by simp [Role.between?])
  | text host content =>
    rw [Role.between?_of_isText (TextHost.isText_of_head top)] at between
    exact absurd between (by simp)

/-- Layout between elements changes nothing. -/
theorem takeText_of_layout {place : Place} {role : Role} {parent : String}
    (top : place.roles.head? = some role) (between : role.between? = some parent)
    {blank : List Char} (layout : Layout blank) : place.takeText blank = pure place := by
  obtain ⟨_, text, _⟩ := between_parts top between
  rw [text, expectLayout, if_pos (List.all_eq_true.mpr layout)]

/-- Layout behind a run of text between elements changes nothing. -/
theorem takeText_append_layout {place : Place} {role : Role} {parent : String}
    (top : place.roles.head? = some role) (between : role.between? = some parent)
    {blank : List Char} (layout : Layout blank) (run : List Char) :
    place.takeText (run ++ blank) = place.takeText run := by
  obtain ⟨_, text, _⟩ := between_parts top between
  rw [text, text, expectLayout, expectLayout, List.all_append, List.all_eq_true.mpr layout,
    Bool.and_true]

end Place

end Reader

namespace Report

/-- What the lenient policy makes of a document is told by a run over its events to the
end. -/
theorem reads_iff {text : String} {catalog : Catalog} {reasons : List Irregularity} :
    (∃ report, ofText .lenient text = .ok report ∧ report.catalog = catalog ∧
      report.warnings.map Warning.reason = reasons) ↔
    (∃ offset, (Cursor.ofText (withoutByteOrderMark text.toList)).ending = .ok offset) ∧
      (Reader.Place.document none).takeAll
        ((eventsOf (withoutByteOrderMark text.toList)).map Prod.snd) =
          ⟨reasons, .ok (.document (some catalog))⟩ := by
  generalize body : withoutByteOrderMark text.toList = chars
  have noticed : (irregularities chars).map Warning.reason =
      ((Reader.Place.document none).noted (eventsOf chars)).map Prod.snd := by
    rw [irregularities, List.map_map]
    rfl
  constructor
  · rintro ⟨report, read, rfl, rfl⟩
    rw [ofText, body] at read
    obtain ⟨content, warnings⟩ := of_ofChars read
    obtain ⟨reached, ended⟩ := contentOf_eq_ok content
    rw [Reader.Place.takeAll_eq, warnings, noticed, reached]
    exact ⟨ended, rfl⟩
  · rintro ⟨⟨offset, ended⟩, run⟩
    have reached := Reader.Place.reached_of_takeAll_outcome (congrArg Reader.Step.outcome run)
    rw [Reader.Place.takeAll_eq] at run
    injection run with notes _
    have content : contentOf chars = .ok catalog := by
      rw [contentOf, reached, ended]
      rfl
    refine ⟨⟨catalog, irregularities chars⟩, ?_, rfl, noticed.trans notes⟩
    rw [ofText, body, ofChars_lenient, content]

end Report

namespace Cursor

/-- Without a byte order mark a text is no longer. -/
theorem length_withoutByteOrderMark_le (text : List Char) :
    (withoutByteOrderMark text).length ≤ text.length := by
  unfold withoutByteOrderMark
  split
  · exact Nat.le_succ _
  · exact Nat.le_refl _

/-- Reading begins behind a byte order mark. -/
theorem ofText_eq (text : List Char) : ofText text = ⟨withoutByteOrderMark text, 0, [], false⟩ := by
  unfold ofText withoutByteOrderMark
  repeat' split
  all_goals simp_all

/-- If reading begins in the front of a text, it begins there whatever stands behind. -/
theorem ofText_front {front back used : List Char} (some : used ≠ [])
    (h : (ofText (withoutByteOrderMark (front ++ back))).rest = used ++ back) (more : List Char) :
    ofText (withoutByteOrderMark (front ++ more)) = ⟨used ++ more, 0, [], false⟩ := by
  have positive : 0 < used.length := List.length_pos_iff.mpr some
  have long (text : List Char) : (ofText text).rest.length ≤ text.length := by
    rw [ofText_eq]
    exact length_withoutByteOrderMark_le text
  have inhabited : front ≠ [] := by
    rintro rfl
    have short := (long _).trans (length_withoutByteOrderMark_le ([] ++ back))
    rw [h, List.length_append, List.nil_append] at short
    omega
  have inner : withoutByteOrderMark front ≠ [] := by
    intro none
    have short := long back
    rw [withoutByteOrderMark_append inhabited, none, List.nil_append] at h
    rw [h, List.length_append] at short
    omega
  rw [withoutByteOrderMark_append inhabited, ofText_append inner] at h ⊢
  obtain rfl : (ofText (withoutByteOrderMark front)).rest = used := List.append_cancel_right h
  rfl

end Cursor

namespace Report

/-- A point of a document that is in a gap of an element with a role, where the text goes
on with markup. -/
inductive IsInsertionPoint (front back : String) (role : Role) : Prop
  /-- The cursor comes to the point behind the events in front of the gap. -/
  | gap {forest : List Node} {found : List MarkupEvent} {offset : Nat} {opened : List (List Char)}
    (events : (eventsOf (withoutByteOrderMark (front ++ back).toList)).map Prod.snd =
      Node.forestEvents forest)
    (gap : Node.RootGap forest role found)
    (run : Cursor.Run (Cursor.ofText (withoutByteOrderMark (front ++ back).toList)) found
      ⟨back.toList, offset, opened, false⟩)
    (bracket : back.toList.head? = some '<')

/-- How a document is read that goes on behind a point: what is read in front of the point,
where the reader stands there, and that everything which leads there goes on alike. -/
structure Passage (report : Report) (front back : String) (role : Role) (used : List Char)
    (found : List MarkupEvent) (opened : List (List Char)) (place : Reader.Place)
    (first second : List Irregularity) : Prop where
  /-- Reading begins in the front. -/
  start : ∀ more : String, Cursor.ofText (withoutByteOrderMark (front ++ more).toList) =
    ⟨used ++ more.toList, 0, [], false⟩
  /-- The cursor comes to the point. -/
  run : ∃ offset, Cursor.Run ⟨used ++ back.toList, 0, [], false⟩ found
    ⟨back.toList, offset, opened, false⟩
  /-- Markup follows. -/
  bracket : back.toList.head? = some '<'
  /-- The events in front of the point take the reader to its place. -/
  taken : (Reader.Place.document none).takeAll found = ⟨first, .ok place⟩
  /-- The place is in an element of the role. -/
  top : place.roles.head? = some role
  /-- What is noted in the document is noted in front of the point or behind it. -/
  reasons : report.warnings.map Warning.reason = first ++ second
  /-- Other documents that lead to the point go on alike. -/
  continues : ∀ {text : String} {found' : List MarkupEvent} {offset : Nat}
    {notes : List Irregularity},
    Cursor.Run (Cursor.ofText (withoutByteOrderMark text.toList)) found'
      ⟨back.toList, offset, opened, false⟩ →
    (Reader.Place.document none).takeAll found' = ⟨notes, .ok place⟩ →
    ∃ other, ofText .lenient text = .ok other ∧ other.catalog = report.catalog ∧
      other.warnings.map Warning.reason = notes ++ second

/-- A document that leads to where another one goes on to its end goes on alike. -/
theorem reads_of_run {text : String} {cursor : Cursor} {place : Reader.Place}
    {found : List MarkupEvent} {offset ended : Nat} {notes second : List Irregularity}
    {catalog : Catalog} (sound : cursor.Sound) (ends : cursor.ending = .ok ended)
    (goes_on : place.takeAll (cursor.events.map Prod.snd) =
      ⟨second, .ok (.document (some catalog))⟩)
    (run : Cursor.Run (Cursor.ofText (withoutByteOrderMark text.toList)) found
      { cursor with offset := offset })
    (taken : (Reader.Place.document none).takeAll found = ⟨notes, .ok place⟩) :
    ∃ other, ofText .lenient text = .ok other ∧ other.catalog = catalog ∧
      other.warnings.map Warning.reason = notes ++ second := by
  obtain ⟨last, behind, ends⟩ := Cursor.Run.of_ending ends
  obtain ⟨last', place', behind', ends'⟩ := behind.alike_to_end sound ends offset
  obtain ⟨events, ending⟩ := (run.append behind').whole ends'
  refine reads_iff.mpr ⟨⟨_, ending⟩, ?_⟩
  rw [eventsOf, events, Reader.Place.takeAll_append, taken, Reader.Step.bind_of_ok rfl, goes_on]

/-- At an insertion point a document goes on as it is. -/
theorem IsInsertionPoint.exists_passage {front back : String} {role : Role} {report : Report}
    (point : IsInsertionPoint front back role) (read : ofText .lenient (front ++ back) = .ok report) :
    ∃ used found opened place first second,
      Passage report front back role used found opened place first second := by
  obtain ⟨events, gap, run, bracket⟩ := point
  next forest found offset opened =>
  obtain ⟨⟨ended, ending⟩, whole⟩ := reads_iff.mp ⟨report, read, rfl, rfl⟩
  have parts := run.passes.events_eq
  rw [run.passes.ending_eq] at ending
  have through : ((Reader.Place.document none).visitAll forest).outcome =
      .ok (.document (some report.catalog)) := by
    rw [← Reader.Place.takeAll_forestEvents, ← events, whole]
  obtain ⟨place, reached, top⟩ := Reader.Place.exists_in_rootGap gap through
  rw [eventsOf, parts, Reader.Place.takeAll_append, Reader.Step.bind_of_ok reached] at whole
  injection whole with notes outcome
  have sound := Cursor.sound_ofText (withoutByteOrderMark (front ++ back).toList)
  obtain ⟨used, split, _⟩ := run.alike sound
  have some : used ≠ [] := by
    rintro rfl
    have shorter := run.size_le
    have events : 0 < found.length := by
      obtain ⟨before, after, _, _, _⟩ := gap
      rw [List.length_append, List.length_cons]
      omega
    rw [Cursor.ofText_eq] at split
    simp only [Cursor.ofText_eq, Cursor.size, split, List.nil_append] at shorter
    omega
  have start (more : String) : Cursor.ofText (withoutByteOrderMark (front ++ more).toList) =
      ⟨used ++ more.toList, 0, [], false⟩ := by
    rw [String.toList_append] at split ⊢
    exact Cursor.ofText_front some split more.toList
  refine ⟨used, found, opened, place, _, _, start, ⟨offset, start back ▸ run⟩, bracket, ?_, top,
    notes.symm, ?_⟩
  · rw [← reached]
  · intro text found' offset' notes' run' taken'
    exact reads_of_run (by simp [Cursor.Sound]) ending (by rw [← outcome]) run' taken'

namespace Passage

variable {report : Report} {front back : String} {role : Role} {used : List Char}
  {found : List MarkupEvent} {opened : List (List Char)} {place : Reader.Place}
  {first second : List Irregularity}

/-- Markup that leads the reader nowhere adds what is noted of it. -/
theorem insert_markup
    (passage : Passage report front back role used found opened place first second)
    (inserted : String) {events : List MarkupEvent} {notes : List Irregularity}
    (bracket : (inserted.toList ++ back.toList).head? = some '<')
    (read : ∀ offset, ∃ counted, Cursor.Run ⟨inserted.toList ++ back.toList, offset, opened, false⟩
      events ⟨back.toList, counted, opened, false⟩)
    (taken : place.takeAll events = ⟨notes, .ok place⟩) :
    ∃ other, ofText .lenient (front ++ (inserted ++ back)) = .ok other ∧
      other.catalog = report.catalog ∧
      other.warnings.map Warning.reason = first ++ notes ++ second := by
  obtain ⟨offset, run⟩ := passage.run
  obtain ⟨used', split, again⟩ := run.alike (by simp [Cursor.Sound])
  obtain rfl : used = used' := List.append_cancel_right split
  obtain ⟨between, front⟩ := again [] 0 (inserted.toList ++ back.toList) fun final _ =>
    .of_head (by rw [bracket, passage.bracket])
  obtain ⟨counted, inside⟩ := read between
  rw [List.append_nil, List.append_nil] at front
  have whole := front.append inside
  rw [← String.toList_append, ← passage.start] at whole
  refine passage.continues whole ?_
  rw [Reader.Place.takeAll_append, passage.taken, Reader.Step.bind_of_ok rfl, taken]

/-- White space between elements leaves no trace. -/
theorem insert_layout
    (passage : Passage report front back role used found opened place first second)
    {parent : String} (between : role.between? = some parent) {blank : String}
    (layout : Reader.Layout blank.toList) :
    ∃ other, ofText .lenient (front ++ (blank ++ back)) = .ok other ∧
      other.catalog = report.catalog ∧
      other.warnings.map Warning.reason = first ++ second := by
  obtain ⟨offset, run⟩ := passage.run
  by_cases none : blank.toList = []
  · rw [String.toList_eq_nil_iff.mp none, String.empty_append]
    exact passage.continues (passage.start back ▸ run) passage.taken
  · obtain ⟨used', split, events, joined, again⟩ := run.join_text (by simp [Cursor.Sound]) rfl
      passage.bracket none layout.bracketless
    obtain rfl : used = used' := List.append_cancel_right split
    obtain ⟨counted, whole⟩ := again 0
    rw [← String.toList_append, ← passage.start] at whole
    refine passage.continues whole ?_
    rcases joined with rfl | ⟨before, text, rfl, rfl⟩
    · rw [Reader.Place.takeAll_append, passage.taken, Reader.Step.bind_of_ok rfl,
        Reader.Place.takeAll_singleton, Reader.Place.take,
        Reader.Place.takeText_of_layout passage.top between layout, Reader.Step.pure_notes,
        Reader.Step.pure_outcome, List.append_nil]
    · have taken := passage.taken
      rw [Reader.Place.takeAll_append] at taken ⊢
      rw [← taken]
      refine Reader.Step.bind_congr_of_ok fun middle reached => ?_
      rw [Reader.Step.bind_of_ok reached] at taken
      injection taken with _ outcome
      rw [Reader.Place.takeAll_singleton] at outcome ⊢
      have same : place.roles = middle.roles :=
        Reader.Place.visit_roles (show (middle.visit (.text text)).outcome = _ from outcome)
      rw [Reader.Place.takeAll_singleton]
      exact Reader.Place.takeText_append_layout (same ▸ passage.top) between layout text

/-- A comment leaves no trace. -/
theorem insert_comment
    (passage : Passage report front back role used found opened place first second)
    {content : List Char} (absent : ¬['-', '-', '>'] <:+: content) :
    ∃ other, ofText .lenient (front ++ (String.ofList (Cursor.commentText content) ++ back)) =
        .ok other ∧ other.catalog = report.catalog ∧
      other.warnings.map Warning.reason = first ++ second := by
  have taken : place.takeAll [.remark] = ⟨[], .ok place⟩ := by
    rw [Reader.Place.takeAll_singleton]
    rfl
  have neutral := passage.insert_markup (String.ofList (Cursor.commentText content))
    (by rw [String.toList_ofList]; rfl)
    (fun offset => by
      rw [String.toList_ofList]
      exact Cursor.run_comment absent opened offset back.toList) taken
  rwa [List.append_nil] at neutral

/-- An element that does not belong where it is put in is noted, and that is all. -/
theorem insert_element
    (passage : Passage report front back role used found opened place first second)
    {parent : String} (between : role.between? = some parent) {element : String} {tag : Tag}
    {children : List Node} (written : Cursor.IsElement element.toList tag children)
    (unknown : String.ofList tag.name ∉ role.known) :
    ∃ other, ofText .lenient (front ++ (element ++ back)) = .ok other ∧
      other.catalog = report.catalog ∧
      other.warnings.map Warning.reason =
        first ++ [.unexpectedElement (String.ofList tag.name) parent] ++ second := by
  obtain ⟨named, _, unexpected⟩ := Reader.Place.between_parts passage.top between
  obtain ⟨more, begins⟩ := written.exists_bracket
  refine passage.insert_markup element (by rw [begins]; rfl)
    (fun offset => written.run opened offset back.toList) ?_
  rw [Reader.Place.takeAll_events, Reader.Place.visit_unexpected (unexpected tag unknown), named]
  rfl

end Passage

/-- At an insertion point an element that is not known there is noted between what was noted
in front of it and behind it, and leaves no other trace. -/
theorem unknown_element_is_neutral {front back : String} {report : Report} {role : Role}
    {parent : String} (read : ofText .lenient (front ++ back) = .ok report)
    (point : IsInsertionPoint front back role) (between : role.between? = some parent)
    {element : String} {tag : Tag} {children : List Node}
    (written : Cursor.IsElement element.toList tag children)
    (unknown : String.ofList tag.name ∉ role.known) :
    ∃ other before behind, ofText .lenient (front ++ (element ++ back)) = .ok other ∧
      other.catalog = report.catalog ∧
      report.warnings.map Warning.reason = before ++ behind ∧
      other.warnings.map Warning.reason =
        before ++ .unexpectedElement (String.ofList tag.name) parent :: behind := by
  obtain ⟨used, found, opened, place, first, second, passage⟩ := point.exists_passage read
  obtain ⟨other, again, same, reasons⟩ := passage.insert_element between written unknown
  rw [List.append_assoc] at reasons
  exact ⟨other, first, second, again, same, passage.reasons, reasons⟩

/-- So is every element that is written as the grammar has it: a name, attributes, and
content of text, comments, character data, instructions and elements, or none at all. -/
theorem written_element_is_neutral {front back : String} {report : Report} {role : Role}
    {parent : String} (read : ofText .lenient (front ++ back) = .ok report)
    (point : IsInsertionPoint front back role) (between : role.between? = some parent)
    {element : String} {tag : Tag} {children : List Node}
    (written : Cursor.ContentText element.toList [.element tag children])
    (unknown : String.ofList tag.name ∉ role.known) :
    ∃ other before behind, ofText .lenient (front ++ (element ++ back)) = .ok other ∧
      other.catalog = report.catalog ∧
      report.warnings.map Warning.reason = before ++ behind ∧
      other.warnings.map Warning.reason =
        before ++ .unexpectedElement (String.ofList tag.name) parent :: behind :=
  unknown_element_is_neutral read point between written.isElement unknown

/-- Between the parts of the root element, of a context, of a message or of a translation
with plural forms, white space and comments leave no trace in what the lenient policy
reads, and an element that is not known there is noted and leaves no other trace. -/
theorem insertions_are_neutral {front back : String} {report : Report} {role : Role}
    {parent : String} (read : ofText .lenient (front ++ back) = .ok report)
    (point : IsInsertionPoint front back role) (between : role.between? = some parent) :
    (∀ blank : String, Reader.Layout blank.toList →
      ∃ other, ofText .lenient (front ++ (blank ++ back)) = .ok other ∧
        other.catalog = report.catalog ∧
        other.warnings.map Warning.reason = report.warnings.map Warning.reason) ∧
    (∀ content, ¬['-', '-', '>'] <:+: content →
      ∃ other, ofText .lenient (front ++ (String.ofList (Cursor.commentText content) ++ back)) =
          .ok other ∧
        other.catalog = report.catalog ∧
        other.warnings.map Warning.reason = report.warnings.map Warning.reason) ∧
    ∀ (element : String) tag children, Cursor.IsElement element.toList tag children →
      String.ofList tag.name ∉ role.known →
      ∃ other before behind, ofText .lenient (front ++ (element ++ back)) = .ok other ∧
        other.catalog = report.catalog ∧
        report.warnings.map Warning.reason = before ++ behind ∧
        other.warnings.map Warning.reason =
          before ++ .unexpectedElement (String.ofList tag.name) parent :: behind := by
  refine ⟨?_, ?_, fun element tag children written unknown =>
    unknown_element_is_neutral read point between written unknown⟩
  all_goals
    obtain ⟨used, found, opened, place, first, second, passage⟩ := point.exists_passage read
    rw [passage.reasons]
  · exact fun blank layout => passage.insert_layout between layout
  · exact fun content absent => passage.insert_comment absent

/-- An unknown element behind the name of a context is noted behind what was noted before. -/
theorem unknown_in_context_is_neutral :
    ∃ other before behind, ofText .lenient ("<TS><b/><context><name>n</name>" ++
        ("<x y=&><name>k</name>&z;</x>" ++ "</context></TS>")) = .ok other ∧
      other.catalog = ⟨"2.0", none, none, [⟨"n", []⟩]⟩ ∧
      [.unexpectedElement "b" "TS"] = before ++ behind ∧
      other.warnings.map Warning.reason =
        before ++ .unexpectedElement "x" "context" :: behind := by
  let name : Node := .element ⟨"name".toList, []⟩ [.text ['n']]
  let strange : Node := .element ⟨"b".toList, []⟩ []
  let context : Node := .element ⟨"context".toList, []⟩ [name]
  have read : ofText .lenient ("<TS><b/><context><name>n</name>" ++ "</context></TS>") =
      .ok ⟨⟨"2.0", none, none, [⟨"n", []⟩]⟩, [⟨⟨1, 9⟩, .unexpectedElement "b" "TS"⟩]⟩ := by
    decide +kernel
  have events : (eventsOf (withoutByteOrderMark
      ("<TS><b/><context><name>n</name>" ++ "</context></TS>").toList)).map Prod.snd =
        Node.forestEvents [.element ⟨"TS".toList, []⟩ [strange, context]] := by
    decide +kernel
  have gap : Node.RootGap [.element ⟨"TS".toList, []⟩ [strange, context]] .context _ :=
    .root [] [] rfl rfl (.deeper [strange] [] (.here [name] []))
  have point : IsInsertionPoint "<TS><b/><context><name>n</name>" "</context></TS>" .context := by
    refine .gap events gap (?_ : Cursor.Run _ _ ⟨_, 31, ["context".toList, "TS".toList], false⟩) rfl
    exact .event rfl (.event rfl (.event rfl (.event rfl (.event rfl (.event rfl (.event rfl
      (.refl _)))))))
  have written : Cursor.IsElement "<x y=&><name>k</name>&z;</x>".toList ⟨['x'], " y=&".toList⟩
      [.element ⟨"name".toList, []⟩ [.text ['k']], .text "&z;".toList] :=
    ⟨28, .event rfl (.event rfl (.event rfl (.event rfl (.event rfl (.event rfl (.refl _))))))⟩
  exact (insertions_are_neutral read point rfl).2.2 _ _ _ written (by decide)

end Report

end MessageCatalog
