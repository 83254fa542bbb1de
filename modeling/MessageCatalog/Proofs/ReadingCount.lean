import MessageCatalog.Proofs.EventRequests
import MessageCatalog.Proofs.Insertions

/-!
# How many events are asked for

Every event takes bytes from the document, except the end of an element that closes itself,
and behind such an end none is due. So there are no more than two events for a byte. The end
of the document is asked for once more, and a fault is never asked for again.
-/

namespace MessageCatalog

namespace Cursor

/-- An event takes bytes, or it is the end of an element that closes itself. -/
theorem takes_bytes {cursor after : Cursor} {offset : Nat} {event : MarkupEvent}
    (sound : cursor.Sound) (read : cursor.next = .event offset event after) :
    Utf8.length after.rest < Utf8.length cursor.rest ∨
      cursor.closing = true ∧ event = .stop ∧ after.rest = cursor.rest ∧
        after.closing = false := by
  cases due : cursor.closing with
  | true =>
    rw [next, if_pos due] at read
    injection read with _ same_event same_after
    subst same_after
    exact .inr ⟨rfl, same_event.symm, rfl, rfl⟩
  | false =>
    left
    obtain ⟨used, split, _⟩ := next_alike sound read
    have lt := next_size_lt read
    rw [size, size, due, split, List.length_append, Bool.toNat_false] at lt
    have some : used ≠ [] := by
      rintro rfl
      rw [List.length_nil] at lt
      omega
    obtain ⟨first, used, rfl⟩ := List.exists_cons_of_ne_nil some
    have positive := first.utf8Size_pos
    rw [split, Utf8.length_append, Utf8.length_cons]
    omega

/-- A document has no more characters than its text. -/
theorem size_ofText_le (text : List Char) : (ofText text).size ≤ 2 * text.length := by
  rw [ofText_eq, size, Bool.toNat_false]
  have shorter := length_withoutByteOrderMark_le text
  dsimp only
  omega

end Cursor

/-- A text has no more characters than bytes. -/
theorem Utf8.length_le_length (text : List Char) : text.length ≤ Utf8.length text := by
  induction text with
  | nil => exact Nat.zero_le _
  | cons c rest ih =>
    have positive := c.utf8Size_pos
    rw [Utf8.length_cons, List.length_cons]
    omega

namespace Reader

/-- Behind every event that was asked for the next one was. -/
theorem Chained.exists_event {first cursor : Cursor} {requests : List Request}
    (h : Chained first requests cursor) {request : Request} (member : request ∈ requests) :
    ∃ offset event after, request.cursor.next = .event offset event after := by
  induction h with
  | start => exact absurd member List.not_mem_nil
  | event earlier read ih =>
    rcases List.mem_cons.mp member with rfl | before
    · exact ⟨_, _, _, read⟩
    · exact ih before

end Reader

namespace Report

open Reader

/-- The call that reads a document. -/
def reading (policy : Policy) (text : String) : Call Catalog :=
  readDocument policy (.document none) (.start (withoutByteOrderMark text.toList))

/-- The events that are asked for when bytes are read, the latest first. None is where the
bytes are no text. -/
def requests (policy : Policy) (bytes : ByteArray) : List Request :=
  match Utf8.decode bytes with
  | .error _ => []
  | .ok text => (reading policy text).progress.requests

/-- Bytes of a text are read in one call. -/
theorem requests_of_text {bytes : ByteArray} {text : String} (h : Utf8.decode bytes = .ok text)
    (policy : Policy) : requests policy bytes = (reading policy text).progress.requests := by
  rw [requests, h]

/-- Reading ends on all bytes, and asks for no more than two events for a byte and one more.
Reading a text, every event but the last that is asked for is there and is taken, and the
next one is asked for behind it. It takes bytes, or it is the end of an element that closes
itself. So nothing is asked for behind the end of the document or a fault, by whatever loop,
and the one loop that the report comes from asks for the same events. -/
theorem few_events_are_asked_for (policy : Policy) (bytes : ByteArray) :
    (requests policy bytes).length < 2 * bytes.size + 2 ∧
      (∀ offset, Utf8.decode bytes = .error offset →
        ofBytes policy bytes = .error (.notUtf8 offset)) ∧
      ∀ text, Utf8.decode bytes = .ok text →
        let document := withoutByteOrderMark text.toList
        ofBytes policy bytes = ofCall document (reading policy text) ∧
          (∃ last earlier, requests policy bytes = last :: earlier ∧
            Chained (Cursor.ofText document) earlier last.cursor ∧
            ∀ request ∈ earlier, ∃ offset event after,
              request.cursor.next = .event offset event after ∧
                (Utf8.length after.rest < Utf8.length request.cursor.rest ∨
                  request.cursor.closing = true ∧ event = .stop ∧
                    after.rest = request.cursor.rest ∧ after.closing = false)) ∧
          let loop := State.recorded policy State.initial (Cursor.ofText document) []
          ofBytes policy bytes = ofOutcome document loop.2 ∧
            loop.1 = (requests policy bytes).map Request.cursor := by
  refine ⟨?few, fun offset none => by rw [ofBytes, none], fun text read => ⟨?report, ?chain, ?loop⟩⟩
  case few =>
    cases read : Utf8.decode bytes with
    | error offset =>
      rw [requests, read]
      exact Nat.succ_pos _
    | ok text =>
      obtain ⟨⟨last, earlier, parts, chained⟩, _⟩ :=
        ended_readDocument policy (withoutByteOrderMark text.toList)
      have steps := chained.length_le
      have characters := Cursor.size_ofText_le (withoutByteOrderMark text.toList)
      have shorter := Cursor.length_withoutByteOrderMark_le text.toList
      have encoded := Utf8.length_le_length text.toList
      rw [← Utf8.size_toUTF8, Utf8.decode_eq_ok_iff.mp read] at encoded
      rw [requests_of_text read, reading, parts, List.length_cons]
      omega
  case report =>
    rw [ofBytes, read]
    exact ofChars_eq_ofCall policy _
  case chain =>
    obtain ⟨⟨last, earlier, parts, chained⟩, level⟩ :=
      ended_readDocument policy (withoutByteOrderMark text.toList)
    refine ⟨last, earlier, (requests_of_text read policy).trans parts, chained,
      fun request member => ?_⟩
    obtain ⟨offset, event, after, found⟩ := chained.exists_event member
    have sound := (level request (parts ▸ List.mem_cons_of_mem last member)).sound
    exact ⟨offset, event, after, found, Cursor.takes_bytes sound found⟩
  case loop =>
    have same := (document_readDocument policy (.document none)
      (.start (withoutByteOrderMark text.toList))).recorded_eq rfl
    rw [requests_of_text read, ofBytes, read]
    exact ⟨ofChars_eq_ofOutcome policy _, congrArg Prod.fst same⟩

end Report

end MessageCatalog
