import MessageCatalog.Proofs.CatalogOfForest
import MessageCatalog.Proofs.CursorRuns
import MessageCatalog.Proofs.EventRequests

/-!
# What a call for an element uses up

A call for an element that returns has used up what is inside of the element and the end
tag that closes it, and nothing else. For the loop of the call returns at the first end tag
that the calls for the elements inside have left, and counting start tags and end tags finds
the same one. So the names of the elements do not matter, and no end tag is left for the
loop over the document.
-/

namespace MessageCatalog

namespace Node

mutual

/-- A part of a document closes what it opens. -/
theorem nested_events (node : Node) (depth : Nat) (rest : List MarkupEvent) :
    Nested depth (node.events ++ rest) ↔ Nested depth rest := by
  match node with
  | .text _ | .data _ | .declaration _ | .remark => rfl
  | .element tag children =>
    rw [events, List.cons_append, List.append_assoc]
    exact (nested_forestEvents children (depth + 1) (.stop :: rest)).trans
      ⟨fun closed => closed.2, fun closed => ⟨Nat.succ_pos depth, closed⟩⟩

/-- Parts of a document close what they open. -/
theorem nested_forestEvents (nodes : List Node) (depth : Nat) (rest : List MarkupEvent) :
    Nested depth (forestEvents nodes ++ rest) ↔ Nested depth rest := by
  match nodes with
  | [] => rfl
  | node :: nodes =>
    rw [forestEvents, List.append_assoc]
    exact (nested_events node depth _).trans (nested_forestEvents nodes depth rest)

end

end Node

/-- From somewhere on nested events close the elements that are open there. -/
theorem Nested.of_append {depth : Nat} {events rest : List MarkupEvent}
    (h : Nested depth (events ++ rest)) : ∃ depth', Nested depth' rest := by
  induction events generalizing depth with
  | nil => exact ⟨depth, h⟩
  | cons event events ih =>
    cases event with
    | start tag => exact @ih (depth + 1) h
    | stop => exact ih h.2
    | text | data | declaration | remark => exact @ih depth h

namespace Cursor

/-- A start tag is not read where the end of an element is due. -/
theorem sound_of_start {cursor after : Cursor} {offset : Nat} {tag : Tag}
    (read : cursor.next = .event offset (.start tag) after) : cursor.Sound := by
  intro due
  rw [next, if_pos due] at read
  injection read with _ other _
  exact MarkupEvent.noConfusion other

namespace Run

variable {first second last : Cursor} {events : List MarkupEvent}

/-- The same events lead to the same place. -/
theorem unique (h : Run first events second) (h' : Run first events last) : second = last := by
  induction h with
  | refl =>
    cases h'
    rfl
  | event found _ ih =>
    cases h' with
    | event found' more' =>
      rw [found] at found'
      injection found' with _ _ same
      subst same
      exact ih more'

/-- All the way the cursor knows the element whose end is due. -/
theorem sound (h : Run first events last) (start : first.Sound) : last.Sound := by
  induction h with
  | refl => exact start
  | event found _ ih => exact ih (tracks_of_event start found).2

/-- Where a run starts those elements are open that its events close, inside of those that
are open where it ends. -/
theorem opened_of_nested (h : Run first events last) (start : first.Sound) {depth : Nat}
    (nested : Nested depth events) :
    ∃ names, names.length = depth ∧ first.opened = names ++ last.opened := by
  induction h generalizing depth with
  | refl => exact ⟨[], nested.symm, rfl⟩
  | @event cursor after last offset event events found more ih =>
    obtain ⟨opens, sound⟩ := tracks_of_event start found
    cases event with
    | start tag =>
      obtain ⟨names, length, opened⟩ := @ih sound (depth + 1) nested
      rw [show after.opened = tag.name :: cursor.opened from opens] at opened
      obtain ⟨name, names, rfl⟩ := List.exists_cons_of_length_eq_add_one length
      injection opened with _ same
      exact ⟨names, Nat.succ.inj length, same⟩
    | stop =>
      obtain ⟨names, length, opened⟩ := ih sound nested.2
      obtain ⟨name, around⟩ := opens
      have above := nested.1
      refine ⟨name :: names, ?_, by rw [around, opened, List.cons_append]⟩
      rw [List.length_cons]
      omega
    | text | data | declaration | remark =>
      obtain ⟨names, length, opened⟩ := @ih sound depth nested
      exact ⟨names, length, (show after.opened = cursor.opened from opens) ▸ opened⟩

end Run

/-- Between two cursors stands what is inside of an element, nested as it may be, and the
end tag that closes it. Up to that tag the element is open, and so are those around it. -/
def ReadsElement (name : List Char) (around : List (List Char)) (inside behind : Cursor) : Prop :=
  ∃ children last offset, Run inside (Node.forestEvents children) last ∧
    last.next = .event offset .stop behind ∧ last.opened = name :: around ∧
    behind.opened = around ∧
    ∀ events rest between, Node.forestEvents children = events ++ rest →
      Run inside events between → name :: around <:+ between.opened

/-- What is read up to an end tag is an element if it is nested. -/
theorem readsElement_of_run {before inside last behind : Cursor} {offset offset' : Nat} {tag : Tag}
    {children : List Node} (start : before.next = .event offset (.start tag) inside)
    (run : Run inside (Node.forestEvents children) last)
    (stop : last.next = .event offset' .stop behind) :
    ReadsElement tag.name before.opened inside behind := by
  obtain ⟨opens, sound⟩ := tracks_of_event (sound_of_start start) start
  have opened : inside.opened = tag.name :: before.opened := opens
  have nested : Nested 0 (Node.forestEvents children) :=
    List.append_nil (Node.forestEvents children) ▸
      (Node.nested_forestEvents children 0 []).mpr rfl
  obtain ⟨names, none, same⟩ := run.opened_of_nested sound nested
  rw [List.length_eq_zero_iff.mp none, List.nil_append, opened] at same
  obtain ⟨⟨name, closed⟩, _⟩ := tracks_of_event (run.sound sound) stop
  refine ⟨children, last, offset', run, stop, same.symm, ?_, fun events rest between parts here => ?_⟩
  · rw [← same] at closed
    injection closed with _ around
    exact around.symm
  · rw [parts] at run nested
    obtain ⟨second, first, more⟩ := run.split
    obtain ⟨depth, nested⟩ := nested.of_append
    obtain ⟨names, _, opened⟩ := more.opened_of_nested (first.sound sound) nested
    rw [here.unique first, opened, ← same]
    exact List.suffix_append _ _

end Cursor

namespace Reader

open Cursor (Run ReadsElement)

/-- Counting start tags and end tags goes over events that are nested, up to the end tag
that is one too many. -/
theorem run_of_skipElement {place : Place} {count : Nat} {progress : Progress} {stop : Nat}
    (returned : (skipElement place count progress).outcome = .ok stop) :
    ∃ events last, Run progress.cursor events last ∧ Nested count events ∧
      last.next = .event stop .stop (skipElement place count progress).progress.cursor := by
  induction progress using Progress.induction_next generalizing count with
  | event progress offset event after read ih =>
    have later (count' : Nat) := @ih (progress.behind place count after progress.noted) rfl count'
    cases event with
    | start tag =>
      rw [skipElement_of_event read] at returned ⊢
      obtain ⟨events, last, run, nested, ends⟩ := later (count + 1) returned
      exact ⟨.start tag :: events, last, .event read run, nested, ends⟩
    | stop =>
      cases count with
      | zero =>
        rw [skipElement_of_event read] at returned ⊢
        injection returned with same
        exact ⟨[], progress.cursor, .refl _, rfl, same ▸ read⟩
      | succ count =>
        rw [skipElement_of_counted read] at returned ⊢
        obtain ⟨events, last, run, nested, ends⟩ := later count returned
        exact ⟨.stop :: events, last, .event read run, ⟨Nat.succ_pos count, nested⟩, ends⟩
    | text | data | declaration | remark =>
      rw [skipElement_of_event read] at returned ⊢
      obtain ⟨events, last, run, nested, ends⟩ := later count returned
      exact ⟨_ :: events, last, .event read run, nested, ends⟩
  | finished progress offset read =>
    rw [skipElement_of_finished read] at returned
    exact absurd returned (by simp)
  | fault progress offset reason read =>
    rw [skipElement_of_fault read] at returned
    exact absurd returned (by simp)

/-- What is no tag is a part of a document on its own. -/
theorem exists_node_of_piece {event : MarkupEvent} (piece : event.IsPiece) :
    ∃ node : Node, node.events = [event] := by
  cases event with
  | start | stop => exact piece.elim
  | text run => exact ⟨.text run, rfl⟩
  | data content => exact ⟨.data content, rfl⟩
  | declaration attributes => exact ⟨.declaration attributes, rfl⟩
  | remark => exact ⟨.remark, rfl⟩

/-- A call that returns has gone over parts of a document and an end tag. A call for an
element inside goes over one more part, whatever is inside of that. -/
theorem Content.exists_run {policy : Policy} {place : Place} {progress : Progress}
    {call : Call Place} (h : Content policy place progress call) {final : Place}
    (returned : call.outcome = .ok final) :
    ∃ children last offset, Run progress.cursor (Node.forestEvents children) last ∧
      last.next = .event offset .stop call.progress.cursor := by
  induction h generalizing final with
  | skipped =>
    obtain ⟨stop, noted, passed, _, progress_eq⟩ := skipContent_eq_ok returned
    obtain ⟨events, last, run, nested, ends⟩ := @run_of_skipElement _ 0 _ _ passed
    obtain ⟨children, rfl⟩ := nested.exists_forest_zero
    exact ⟨children, last, stop, run, progress_eq ▸ ends⟩
  | stopped read taken => exact ⟨[], _, _, .refl _, read⟩
  | passed read piece taken more ih =>
    obtain ⟨node, alone⟩ := exists_node_of_piece piece
    obtain ⟨children, last, stop, run, ends⟩ := ih returned
    refine ⟨node :: children, last, stop, ?_, ends⟩
    rw [Node.forestEvents, alone]
    exact .event read run
  | @returned _ _ _ _ _ _ tag _ _ _ read taken inside more ih ih' =>
    obtain ⟨children, last, stop, run, ends⟩ := ih rfl
    obtain ⟨children', last', stop', run', ends'⟩ := ih' returned
    refine ⟨.element tag children :: children', last', stop', ?_, ends'⟩
    rw [Node.forestEvents, Node.events]
    exact .event read ((run.append (.single ends)).append run')
  | finished | fault | refused | broken => exact absurd returned (by simp)

/-- Where an element is passed over, the counter is never below zero. -/
theorem counted_of_skipElement {place : Place} {counter : Int} (counted : 0 ≤ counter)
    (progress : Progress) {request : Request}
    (member : request ∈ (skipElement place counter progress).progress.requests) :
    request ∈ progress.requests ∨ 0 ≤ request.counter := by
  have here {progress : Progress} {counter : Int} (counted : 0 ≤ counter)
      (member : request ∈ ⟨place, counter, progress.cursor⟩ :: progress.requests) :
      request ∈ progress.requests ∨ 0 ≤ request.counter := by
    rcases List.mem_cons.mp member with rfl | earlier
    · exact .inr counted
    · exact .inl earlier
  induction progress using Progress.induction_next generalizing counter with
  | event progress offset event after read ih =>
    have later (counter' : Int) (counted' : 0 ≤ counter')
        (member : request ∈ (skipElement place counter'
          (progress.behind place counter after progress.noted)).progress.requests) :
        request ∈ progress.requests ∨ 0 ≤ request.counter :=
      (ih _ rfl counted' member).elim (here counted) .inr
    rw [skipElement_of_event read] at member
    cases event with
    | start tag => exact later (counter + 1) (Int.le_add_one counted) member
    | stop =>
      dsimp only at member
      by_cases none : counter = 0
      · rw [if_pos none] at member
        exact here counted member
      · rw [if_neg none] at member
        exact later (counter - 1) (by omega) member
    | text | data | declaration | remark => exact later counter counted member
  | finished progress offset read =>
    rw [skipElement_of_finished read] at member
    exact here counted member
  | fault progress offset reason read =>
    rw [skipElement_of_fault read] at member
    exact here counted member

/-- Every document that can be read is nested. -/
theorem exists_forest_of_report {policy : Policy} {text : List Char} {report : Report}
    (read : Report.ofChars policy text = .ok report) :
    ∃ forest last offset, Run (Cursor.ofText text) (Node.forestEvents forest) last ∧
      last.next = .finished offset ∧ last.opened = [] := by
  obtain ⟨reached, _, ended⟩ := Report.contentOf_eq_ok (Report.of_ofChars read).1
  have nested := Place.nested_of_reached (Cursor.sound_ofText text) rfl reached rfl
  obtain ⟨last, run, ends⟩ := Run.of_ending ended
  obtain ⟨names, none, opened⟩ := run.opened_of_nested (Cursor.sound_ofText text) nested
  obtain ⟨forest, events⟩ := nested.exists_forest_zero
  rw [List.length_eq_zero_iff.mp none] at opened
  exact ⟨forest, last, _, events ▸ run, ends, opened.symm⟩

/-- A call for an element that returns, made behind the start tag of the element, has used
up what is inside of the element and its end tag, whatever element it is, and the reader is
back at the elements around it. So has the call that passes over an element, whose counter is
never below zero. While a document is read, the open elements are always those around
the place of the reader and those that are counted; no end tag is ever left for the loop over
the document; and a document that can be read is nested. -/
theorem calls_use_up_elements (policy : Policy) :
    (∀ (place inner final : Place) (tag : Tag) (before : Cursor) (offset : Nat)
      (progress : Progress), before.next = .event offset (.start tag) progress.cursor →
      (place.enter tag).outcome = .ok inner →
      (readContent policy inner progress).1.outcome = .ok final →
        ReadsElement tag.name before.opened progress.cursor
            (readContent policy inner progress).1.progress.cursor ∧
          final.roles = place.roles) ∧
      (∀ (place : Place) (tag : Tag) (before : Cursor) (offset stop : Nat) (progress : Progress),
        before.next = .event offset (.start tag) progress.cursor →
        (skipElement place 0 progress).outcome = .ok stop →
          ReadsElement tag.name before.opened progress.cursor
            (skipElement place 0 progress).progress.cursor) ∧
      (∀ (place : Place) (progress : Progress),
        ∀ request ∈ (skipElement place 0 progress).progress.requests,
          request ∈ progress.requests ∨ 0 ≤ request.counter) ∧
      ∀ text : List Char,
        let call := readDocument policy (.document none) (.start text)
        Report.ofChars policy text = Report.ofCall text call ∧
          (∀ request ∈ call.progress.requests, 0 ≤ request.counter ∧
            (request.cursor.opened.length : Int) = request.place.depth + request.counter ∧
            ∀ catalog, request.place = .document catalog → ∀ offset after,
              request.cursor.next ≠ .event offset .stop after) ∧
          ∀ report, Report.ofChars policy text = .ok report →
            ∃ forest last offset, Run (Cursor.ofText text) (Node.forestEvents forest) last ∧
              last.next = .finished offset ∧ last.opened = [] := by
  refine ⟨?element, ?skipped, ?counted, fun text => ⟨Report.ofChars_eq_ofCall policy text, ?level,
    fun report => exists_forest_of_report⟩⟩
  case element =>
    intro place inner final tag before offset progress start entered returned
    have content := content_readContent policy inner progress
    obtain ⟨children, last, stop, run, ends⟩ := content.exists_run returned
    exact ⟨Cursor.readsElement_of_run start run ends,
      (content.roles_eq returned).trans (Place.roles_of_start entered)⟩
  case skipped =>
    intro place tag before offset stop progress start returned
    obtain ⟨events, last, run, nested, ends⟩ := @run_of_skipElement _ 0 _ _ returned
    obtain ⟨children, rfl⟩ := nested.exists_forest_zero
    exact Cursor.readsElement_of_run start run ends
  case counted =>
    intro place progress request member
    exact counted_of_skipElement (Int.le_refl 0) progress member
  case level =>
    intro request member
    have level := (ended_readDocument policy text).2 request member
    exact ⟨level.counted, level.deep, fun catalog outside => level.not_stop outside⟩

/-- The root element is used up with all elements of the same name inside of it. -/
theorem root_uses_up_elements_named_alike :
    ∃ (inner final : Place) (progress : Progress),
      (Cursor.ofText "<TS><TS/><TS></TS></TS>".toList).next =
          .event 4 (.start (Tag.ofContent "TS".toList)) progress.cursor ∧
        ((Place.document none).enter (Tag.ofContent "TS".toList)).outcome = .ok inner ∧
        (readContent .lenient inner progress).1.outcome = .ok final ∧
        ReadsElement "TS".toList [] progress.cursor
          (readContent .lenient inner progress).1.progress.cursor ∧
        final.roles = [] := by
  let progress : Progress := ⟨⟨"<TS/><TS></TS></TS>".toList, 4, ["TS".toList], false⟩, #[], []⟩
  let tag := Tag.ofContent "TS".toList
  have start : (Cursor.ofText "<TS><TS/><TS></TS></TS>".toList).next =
      .event 4 (.start tag) progress.cursor := rfl
  have returns : (((Place.document none).enter tag).outcome.toOption.any fun inner =>
      (readContent .lenient inner progress).1.outcome.isOk) = true := by decide +kernel
  cases entered : ((Place.document none).enter tag).outcome with
  | error fatal =>
    rw [entered] at returns
    exact absurd returns Bool.false_ne_true
  | ok inner =>
    rw [entered] at returns
    cases returned : (readContent .lenient inner progress).1.outcome with
    | error fault =>
      rw [Except.toOption, Option.any_some, returned] at returns
      exact absurd returns Bool.false_ne_true
    | ok final =>
      obtain ⟨uses, roles⟩ :=
        (calls_use_up_elements .lenient).1 _ _ _ _ _ _ progress start entered returned
      exact ⟨inner, final, progress, start, rfl, returned, uses, roles⟩

end Reader

end MessageCatalog
