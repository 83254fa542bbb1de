import Mathlib.Data.List.Basic
import MessageCatalog.Proofs.PolicyAgreement
import MessageCatalog.Proofs.Positions

/-!
# Warnings in document order

Reading only goes forward: the place of an event is not in front of where reading
stood, and not behind where it stands afterwards. So the places of events ascend, and
with them the places of what is noted at the events, however deep the reader is in
the document then. Their positions ascend too, from the start of the document to its
end.
-/

namespace MessageCatalog

/-! ## Places of events -/

/-- A reading goes forward from an offset: the place of its event is not in front of
it, and reading goes on from there or from further behind. -/
def Reading.Ascends (start : Nat) : Reading → Prop
  | .event place _ after => start ≤ place ∧ place ≤ after.offset
  | _ => True

/-- A reading that goes forward from one offset goes forward from one in front of it. -/
theorem Reading.Ascends.mono {start earlier : Nat} {reading : Reading} (h : reading.Ascends start)
    (le : earlier ≤ start) : reading.Ascends earlier := by
  cases reading with
  | event place event after => exact ⟨Nat.le_trans le h.1, h.2⟩
  | finished offset => trivial
  | fault offset fault => trivial

namespace Cursor

variable (opened : List (List Char)) (offset : Nat) (text : List Char)

/-- Reading goes forward over a comment. -/
theorem readComment_ascends : (readComment opened offset text).Ascends offset := by
  unfold readComment
  split
  · trivial
  · split
    · trivial
    · dsimp only
      split
      · exact ⟨by omega, Nat.le_refl _⟩
      · trivial

/-- Reading goes forward over character data. -/
theorem readData_ascends : (readData opened offset text).Ascends offset := by
  unfold readData
  split
  · trivial
  · dsimp only
    split
    · exact ⟨by omega, Nat.le_refl _⟩
    · trivial

/-- Reading goes forward over a document type. -/
theorem readDoctype_ascends : (readDoctype opened offset text).Ascends offset := by
  unfold readDoctype
  split
  · trivial
  · dsimp only
    split
    · split
      · trivial
      · exact ⟨by omega, Nat.le_refl _⟩
    · trivial

/-- Reading goes forward over every construct behind an exclamation mark. -/
theorem readBang_ascends : (readBang opened offset text).Ascends offset := by
  unfold readBang
  split
  · trivial
  · exact readComment_ascends opened offset _
  · exact readData_ascends opened offset _
  · split
    · exact readDoctype_ascends opened offset _
    · trivial

/-- Reading goes forward over an end tag. -/
theorem readEnd_ascends : (readEnd opened offset text).Ascends offset := by
  unfold readEnd
  dsimp only
  split
  · trivial
  · split
    · exact ⟨by omega, Nat.le_refl _⟩
    · trivial

/-- Reading goes forward over an instruction. -/
theorem readInstruction_ascends : (readInstruction opened offset text).Ascends offset := by
  unfold readInstruction
  dsimp only
  split
  · exact ⟨by omega, Nat.le_refl _⟩
  · trivial

/-- Reading goes forward over a start tag. -/
theorem readStart_ascends : (readStart opened offset text).Ascends offset := by
  unfold readStart
  split
  · trivial
  · exact ⟨by omega, Nat.le_refl _⟩

/-- Reading goes forward over all markup. -/
theorem readMarkup_ascends : (readMarkup opened offset text).Ascends offset := by
  unfold readMarkup
  split
  · trivial
  · exact readBang_ascends opened offset _
  · exact readEnd_ascends opened offset _
  · exact readInstruction_ascends opened offset _
  · exact readStart_ascends opened offset _

/-- Every reading goes forward. The end of a tag that closes itself is where the tag is
read, and a run of text that ends the document has its place before its last byte,
which is no place in front of the run. -/
theorem next_ascends (cursor : Cursor) : cursor.next.Ascends cursor.offset := by
  unfold next
  split
  · exact ⟨Nat.le_refl _, Nat.le_refl _⟩
  · split
    · trivial
    · exact (readMarkup_ascends _ _ _).mono (Nat.le_succ _)
    next first more _ _ =>
      have some := first.utf8Size_pos
      have length : Utf8.length (first :: more.takeWhile (· != '<')) =
          first.utf8Size + Utf8.length (more.takeWhile (· != '<')) := Utf8.length_cons first _
      dsimp only [Reading.Ascends]
      split <;> omega

/-- No event has its place in front of the cursor, and the places of events ascend. -/
theorem pairwise_events (cursor : Cursor) :
    (∀ entry ∈ cursor.events, cursor.offset ≤ entry.1) ∧
      cursor.events.Pairwise fun first second => first.1 ≤ second.1 := by
  induction cursor using induction_next with
  | event cursor place event after h ih =>
    have ascends := next_ascends cursor
    rw [h] at ascends
    obtain ⟨least, pairwise⟩ := ih
    rw [events_of_event h, List.forall_mem_cons, List.pairwise_cons]
    refine ⟨⟨ascends.1, fun entry member => ?_⟩, fun entry member => ?_, pairwise⟩
    · exact Nat.le_trans (Nat.le_trans ascends.1 ascends.2) (least entry member)
    · exact Nat.le_trans ascends.2 (least entry member)
  | finished cursor offset h => simp [(events_of_finished h).1]
  | fault cursor offset reason h => simp [(events_of_fault h).1]

end Cursor

/-! ## Places of what is noted -/

namespace Reader

/-- What is noted is noted at an event. -/
theorem Place.exists_event_of_noted {place : Place} {events : List (Nat × MarkupEvent)}
    {entry : Nat × Irregularity} (member : entry ∈ place.noted events) :
    ∃ event, (entry.1, event) ∈ events := by
  induction events generalizing place with
  | nil => cases member
  | cons first rest ih =>
    obtain ⟨offset, event⟩ := first
    rw [noted] at member
    rcases List.mem_append.mp member with here | behind
    · obtain ⟨reason, _, rfl⟩ := List.mem_map.mp here
      exact ⟨event, List.mem_cons_self⟩
    · split at behind
      · obtain ⟨found, later⟩ := ih behind
        exact ⟨found, List.mem_cons_of_mem _ later⟩
      · cases behind

/-- Where the places of events ascend, those of what is noted do. -/
theorem Place.pairwise_noted (place : Place) {events : List (Nat × MarkupEvent)}
    (ascending : events.Pairwise fun first second => first.1 ≤ second.1) :
    (place.noted events).Pairwise fun first second => first.1 ≤ second.1 := by
  induction events generalizing place with
  | nil => exact .nil
  | cons first rest ih =>
    obtain ⟨offset, event⟩ := first
    obtain ⟨least, others⟩ := List.pairwise_cons.mp ascending
    have here : ((place.take event).notes.map (offset, ·)).Pairwise
        fun first second => first.1 ≤ second.1 :=
      List.pairwise_map.mpr (List.pairwise_of_forall fun _ _ => Nat.le_refl offset)
    rw [noted]
    refine List.pairwise_append.mpr ⟨here, ?_, fun one member later behind => ?_⟩
    · split
      · exact ih _ others
      · exact .nil
    · obtain ⟨reason, _, rfl⟩ := List.mem_map.mp member
      split at behind
      · obtain ⟨found, inside⟩ := exists_event_of_noted behind
        exact least _ inside
      · cases behind

end Reader

namespace Report

/-- All that is irregular in a document comes in document order. -/
theorem pairwise_irregularities (text : List Char) :
    (irregularities text).Pairwise fun first second => first.position ≤ second.position := by
  have ascending := (Reader.Place.document none).pairwise_noted
    (Cursor.pairwise_events (Cursor.ofText text)).2
  exact List.pairwise_map.mpr (ascending.imp fun le => Position.ofOffset_le_ofOffset text le)

/-- Warnings come in document order. Whatever the lenient policy reads, the positions
of its warnings ascend along the list, lines before columns; lines and columns count
from one, and no position is behind that of the end of the document, whose byte order
mark is no part of it. -/
theorem warnings_in_order {text : String} {report : Report}
    (read : ofText .lenient text = .ok report) :
    (report.warnings.Pairwise fun first second => first.position ≤ second.position) ∧
    ∀ warning ∈ report.warnings, 1 ≤ warning.position.line ∧ 1 ≤ warning.position.column ∧
      Position.first ≤ warning.position ∧
      warning.position ≤ Position.ofOffset (withoutByteOrderMark text.toList)
        (Utf8.length (withoutByteOrderMark text.toList)) := by
  rw [(of_ofChars read).2]
  refine ⟨pairwise_irregularities _, fun warning member => ?_⟩
  obtain ⟨entry, _, rfl⟩ := List.mem_map.mp member
  obtain ⟨line, column⟩ := Position.one_le_ofOffset (withoutByteOrderMark text.toList) entry.1
  exact ⟨line, column, Position.first_le_ofOffset _ _, Position.ofOffset_le_end _ entry.1⟩

/-- Behind two byte order marks, an element that is skipped over two lines, a context that
closes itself and text at the very end are reported in order. -/
theorem marked_twice_in_order :
    ∃ report, ofText .lenient "\uFEFF\uFEFF<TS><b>ü\n<b/></b><context/>é</TS>ü" = .ok report ∧
      report.warnings.map Warning.position = [⟨1, 6⟩, ⟨2, 16⟩, ⟨2, 18⟩, ⟨2, 23⟩] ∧
      (report.warnings.Pairwise fun first second => first.position ≤ second.position) ∧
      ∀ warning ∈ report.warnings, warning.position ≤ ⟨2, 26⟩ := by
  have read : ofText .lenient "\uFEFF\uFEFF<TS><b>ü\n<b/></b><context/>é</TS>ü" =
      .ok ⟨⟨"2.0", none, none, [⟨"", []⟩]⟩,
        [⟨⟨1, 6⟩, .unexpectedElement "b" "TS"⟩, ⟨⟨2, 16⟩, .unnamedContext⟩,
          ⟨⟨2, 18⟩, .strayText "TS"⟩, ⟨⟨2, 23⟩, .strayText "document"⟩]⟩ := by
    decide +kernel
  obtain ⟨ordered, bounded⟩ := warnings_in_order read
  exact ⟨_, read, rfl, ordered, fun warning member => (bounded warning member).2.2.2⟩

end Report

end MessageCatalog
