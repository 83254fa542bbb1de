import MessageCatalog.Proofs.ElementRoles
import MessageCatalog.Proofs.MarkupPrefix
import MessageCatalog.Proofs.Utf8Text

/-!
# Truncated documents

A document that can be read ends with its first root element, as far as the
catalog goes. Whatever is cut off before the name in the end tag of that element,
the rest cannot be read: either a character or some markup is incomplete, or an
element is still open. So no half of a file is ever taken for the whole.
-/

namespace MessageCatalog

/-- Whether an event starts a root element where some elements are open. -/
def MarkupEvent.entersRoot (event : MarkupEvent) (opened : List (List Char)) : Bool :=
  match event with
  | .start tag => opened.isEmpty && String.ofList tag.name == "TS"
  | .text _ | .data _ | .declaration _ | .remark | .stop => false

/-- An event leads as deep as there are open elements. -/
theorem MarkupEvent.depthBehind_of_opens {event : MarkupEvent} {before after : List (List Char)}
    (opens : event.Opens before after) : event.depthBehind before.length = after.length := by
  cases event with
  | start tag =>
    rw [show after = tag.name :: before from opens]
    rfl
  | stop =>
    obtain ⟨name, rfl⟩ := opens
    rfl
  | text | data | declaration | remark =>
    rw [show after = before from opens]
    rfl

namespace Cursor

/-- What is left behind the name in the end tag of the first root element, or behind
the whole tag if the element closes itself. The reader may already be inside of it. -/
def behindRoot? (inside : Bool) (cursor : Cursor) : Option (List Char) :=
  match _read : cursor.next with
  | .finished _ | .fault _ _ => none
  | .event _ event after =>
    if inside = true ∧ event = .stop ∧ after.opened = [] then
      some (if cursor.closing then cursor.rest else cursor.rest.drop "</TS".length)
    else behindRoot? (inside || event.entersRoot cursor.opened) after
termination_by cursor.size
decreasing_by exact next_size_lt _read

/-- An event ends the first root element, or it leads on. -/
theorem behindRoot?_of_event {inside : Bool} {cursor after : Cursor} {offset : Nat}
    {event : MarkupEvent} (h : cursor.next = .event offset event after) :
    cursor.behindRoot? inside =
      if inside = true ∧ event = .stop ∧ after.opened = [] then
        some (if cursor.closing then cursor.rest else cursor.rest.drop "</TS".length)
      else after.behindRoot? (inside || event.entersRoot cursor.opened) := by
  rw [behindRoot?]
  split
  next equation => simp [h] at equation
  next equation => simp [h] at equation
  next equation =>
    rw [h] at equation
    injection equation with _ same_event same_after
    rw [same_event, same_after]

/-- Where nothing is left to read, no element ends. -/
theorem behindRoot?_of_finished {inside : Bool} {cursor : Cursor} {offset : Nat}
    (h : cursor.next = .finished offset) : cursor.behindRoot? inside = none := by
  rw [behindRoot?]
  split <;> simp_all

/-- Where there is a fault, no element ends. -/
theorem behindRoot?_of_fault {inside : Bool} {cursor : Cursor} {offset : Nat}
    {reason : MarkupFault} (h : cursor.next = .fault offset reason) :
    cursor.behindRoot? inside = none := by
  rw [behindRoot?]
  split <;> simp_all

end Cursor

/-! ## A document that can be read has a root element that ends -/

namespace Reader

namespace Place

/-- A place before the root element: outside of every element, or in elements that
are passed over there. -/
def BeforeRoot : Place → Prop
  | document none => True
  | skipped outer => outer.BeforeRoot
  | document (some _) | root _ | context _ | message _ | location _ _ | forms _ | text _ _
  | byte _ _ _ => False

/-- A place inside the root element, or before it. -/
def Stands (place : Place) (inside : Bool) : Prop :=
  match inside with
  | true => place.roles.getLast? = some .root
  | false => place.BeforeRoot

/-- As many elements are open as there are roles. -/
theorem length_roles (place : Place) : place.roles.length = place.depth := by
  have host (host : TextHost) : host.roles.length = host.depth := by
    rcases host with _ | ⟨_ | _ | _ | _ | _, _⟩ | _ <;> rfl
  induction place with
  | text inner content => exact host inner
  | byte value inner content => exact congrArg (· + 1) (host inner)
  | skipped outer ih => exact congrArg (· + 1) ih
  | document | root | context | message | location | forms => rfl

/-- A start tag leads into the root element, or into one that is inside or before it. -/
theorem enter_stands {place next : Place} {tag : Tag} {inside : Bool} {opened : List (List Char)}
    (stands : place.Stands inside) (level : place.depth = opened.length)
    (h : (place.enter tag).outcome = .ok next) :
    next.Stands (inside || (MarkupEvent.start tag).entersRoot opened) := by
  cases inside with
  | true =>
    obtain ⟨role, behind, _⟩ := enter_isBehind h
    change next.roles.getLast? = some .root
    rw [behind, List.getLast?_cons, stands]
    rfl
  | false =>
    cases place with
    | document catalog =>
      cases catalog with
      | some catalog => exact stands.elim
      | none =>
        obtain rfl : opened = [] := List.length_eq_zero_iff.mp level.symm
        simp only [enter] at h
        split at h
        next name =>
          obtain ⟨_, _, rfl⟩ := OpenCatalog.start_eq_ok h
          simp only [MarkupEvent.entersRoot, name]
          rfl
        next other =>
          injection h with h
          simp only [MarkupEvent.entersRoot, beq_eq_false_iff_ne.mpr other]
          exact h ▸ stands
    | skipped outer =>
      have deep : opened ≠ [] := by
        rintro rfl
        exact absurd level (by simp [depth])
      injection h with h
      simp only [MarkupEvent.entersRoot, List.isEmpty_eq_false_iff.mpr deep]
      exact h ▸ stands
    | root | context | message | location | forms | text | byte => exact stands.elim

/-- An end tag leads out of an element inside or before the root element, unless it
is that of the root element. -/
theorem leave_stands {place next : Place} {inside : Bool} (stands : place.Stands inside)
    (open_still : inside = true → next.depth ≠ 0) (h : place.leave.outcome = .ok next) :
    next.Stands inside := by
  cases inside with
  | true =>
    obtain ⟨found, left, roles⟩ := leave_eq_ok place
    rw [h] at left
    injection left with same
    rw [← same] at roles
    have around : next.roles ≠ [] := fun none => open_still rfl (by rw [← length_roles, none]; rfl)
    obtain ⟨top, second, more, shape⟩ : ∃ top second more, place.roles = top :: second :: more := by
      cases own : place.roles with
      | nil =>
        rw [own] at roles
        exact absurd roles around
      | cons top outer =>
        rw [own, List.tail_cons] at roles
        obtain ⟨second, more, rfl⟩ := List.exists_cons_of_ne_nil (roles ▸ around)
        exact ⟨top, second, more, rfl⟩
    change place.roles.getLast? = some .root at stands
    change next.roles.getLast? = some .root
    rw [shape, List.getLast?_cons_cons] at stands
    rw [roles, shape]
    exact stands
  | false =>
    cases place with
    | document catalog =>
      injection h with h
      exact h ▸ stands
    | skipped outer =>
      injection h with h
      exact h ▸ stands
    | root | context | message | location | forms | text | byte => exact stands.elim

/-- What is between tags leads nowhere. -/
theorem stands_of_roles {place next : Place} {inside : Bool} (stands : place.Stands inside)
    (roles : next.roles = place.roles)
    (same : (∀ host content, place ≠ .text host content) → next = place) : next.Stands inside := by
  cases inside with
  | true =>
    change next.roles.getLast? = some .root
    rw [roles]
    exact stands
  | false =>
    have between : ∀ host content, place ≠ .text host content := by
      rintro host content rfl
      exact stands.elim
    rw [same between]
    exact stands

/-- The reader comes into the root element at its start tag and stays in it up to its
end tag. -/
theorem take_stands {place next : Place} {event : MarkupEvent} {inside : Bool}
    {opened : List (List Char)} (stands : place.Stands inside) (level : place.depth = opened.length)
    (still : ¬(inside = true ∧ event = .stop ∧ next.depth = 0))
    (h : (place.take event).outcome = .ok next) : next.Stands (inside || event.entersRoot opened) := by
  cases event with
  | start tag => exact enter_stands stands level h
  | stop =>
    rw [MarkupEvent.entersRoot, Bool.or_false]
    exact leave_stands stands (fun within outside => still ⟨within, rfl, outside⟩) h
  | text run =>
    rw [MarkupEvent.entersRoot, Bool.or_false]
    rcases takeText_eq_ok h with ⟨host, content, plain, rfl, _, rfl⟩ | ⟨_, rfl⟩
    · exact stands_of_roles stands rfl fun other => absurd rfl (other host content)
    · exact stands
  | data content =>
    rw [MarkupEvent.entersRoot, Bool.or_false]
    rcases takeData_eq_ok h with ⟨host, before, rfl, rfl⟩ | ⟨_, rfl⟩
    · exact stands_of_roles stands rfl fun other => absurd rfl (other host before)
    · exact stands
  | declaration attributes =>
    rw [MarkupEvent.entersRoot, Bool.or_false, takeDeclaration_eq_ok h]
    exact stands
  | remark =>
    injection h with h
    rw [MarkupEvent.entersRoot, Bool.or_false, ← h]
    exact stands

/-- At the end of a document with a catalog the reader is neither in the root element
nor before it. -/
theorem not_stands_outside {place : Place} {inside : Bool} {catalog : Catalog}
    (stands : place.Stands inside) (h : place.reached [] = .ok (document (some catalog))) : False := by
  injection h with same
  rw [same] at stands
  cases inside with
  | true => exact absurd stands (by simp [Stands, roles])
  | false => exact stands

/-- Where the events lead to the end of a document with a catalog, the first root element
ends. `Stands` is kept event by event and does not hold at the end of the document, so one
of the events must be that end. -/
theorem exists_behindRoot {cursor : Cursor} (sound : cursor.Sound) {place : Place} {inside : Bool}
    {catalog : Catalog} (stands : place.Stands inside) (level : place.depth = cursor.opened.length)
    (reached : place.reached cursor.events = .ok (document (some catalog))) :
    ∃ rest, cursor.behindRoot? inside = some rest := by
  induction cursor using Cursor.induction_next generalizing place inside with
  | event cursor offset event after found ih =>
    obtain ⟨opens, sound'⟩ := Cursor.tracks_of_event sound found
    rw [Cursor.behindRoot?_of_event found]
    rw [Cursor.events_of_event found, Place.reached] at reached
    split at reached
    next next taken =>
      have level' : next.depth = after.opened.length := by
        rw [take_depth taken, level, MarkupEvent.depthBehind_of_opens opens]
      split
      next => exact ⟨_, rfl⟩
      next still =>
        refine ih sound' (take_stands stands level ?_ taken) level' reached
        rintro ⟨within, stop, outside⟩
        exact still ⟨within, stop, List.length_eq_zero_iff.mp (level' ▸ outside)⟩
    next => exact absurd reached (by simp)
  | finished cursor offset found =>
    rw [(Cursor.events_of_finished found).1] at reached
    exact (not_stands_outside stands reached).elim
  | fault cursor offset reason found =>
    rw [(Cursor.events_of_fault found).1] at reached
    exact (not_stands_outside stands reached).elim

end Place

end Reader

/-! ## More text behind a document -/

/-- Inside the root element the outermost open element stays the root element. -/
theorem MarkupEvent.named_of_opens {event : MarkupEvent} {before after : List (List Char)}
    (opens : event.Opens before after) {inside : Bool}
    (named : inside = true → before.getLast? = some "TS".toList)
    (still : ¬(inside = true ∧ event = .stop ∧ after = []))
    (within : (inside || event.entersRoot before) = true) : after.getLast? = some "TS".toList := by
  cases event with
  | start tag =>
    rw [show after = tag.name :: before from opens, List.getLast?_cons]
    rcases Bool.or_eq_true_iff.mp within with earlier | enters
    · rw [named earlier]
      rfl
    · simp only [entersRoot, Bool.and_eq_true, List.isEmpty_iff, beq_iff_eq] at enters
      rw [enters.1, ← enters.2, String.toList_ofList]
      rfl
  | stop =>
    obtain ⟨name, rfl⟩ := opens
    rw [entersRoot, Bool.or_false] at within
    obtain ⟨second, more, rfl⟩ := List.exists_cons_of_ne_nil fun none => still ⟨within, rfl, none⟩
    rw [← List.getLast?_cons_cons]
    exact named within
  | text | data | declaration | remark =>
    rw [entersRoot, Bool.or_false] at within
    rw [show after = before from opens]
    exact named within

namespace Cursor

/-- Trimming a name makes it no longer. -/
theorem length_trimName_le (content : List Char) : (trimName content).length ≤ content.length := by
  unfold trimName
  split
  · exact Nat.le_refl _
  · have short := Tag.length_dropWhile_le isTagSpace content.reverse
    rw [List.length_reverse] at short ⊢
    exact short

/-- Before the end of an element there is an end tag with its name. -/
theorem length_le_of_stop {cursor after : Cursor} {offset : Nat} {name : List Char}
    (plain : cursor.closing = false) (h : cursor.next = .event offset .stop after)
    (opened : cursor.opened = name :: after.opened) : name.length + 2 ≤ cursor.rest.length := by
  obtain ⟨text, rest, expected, opened', trimmed⟩ := readEnd_of_stop plain h
  rw [opened] at opened'
  injection opened' with same
  have short := length_trimName_le (text.takeWhile (· != '>'))
  have shorter : (text.takeWhile (· != '>')).length ≤ text.length :=
    (List.takeWhile_sublist _).length_le
  rw [trimmed, ← same] at short
  rw [rest, List.length_cons, List.length_cons]
  omega

/-- Where the root element ends, it ends when more text follows as well, if that is
read without a fault. -/
theorem behindRoot?_extend_of_stop {cursor after : Cursor} {offset : Nat} {more : List Char}
    (sound : cursor.Sound) (named : cursor.opened.getLast? = some "TS".toList)
    (found : cursor.next = .event offset .stop after) (outside : after.opened = [])
    (sane : ∀ place fault, (cursor.extend more).next ≠ .fault place fault) :
    (cursor.extend more).behindRoot? true =
      some ((if cursor.closing then cursor.rest else cursor.rest.drop "</TS".length) ++ more) := by
  obtain ⟨name, opened⟩ := (tracks_of_event sound found).1
  rw [opened, outside] at named
  injection named with named
  cases closing : cursor.closing with
  | true =>
    have again : (cursor.extend more).next = .event cursor.offset .stop
        ⟨cursor.rest ++ more, cursor.offset, cursor.opened.tail, false⟩ := by
      rw [next, extend, if_pos closing]
    rw [behindRoot?_of_event again, if_pos ⟨rfl, rfl, by rw [opened, outside]; rfl⟩, extend,
      if_pos closing, if_pos rfl]
  | false =>
    obtain ⟨place, after', again, same⟩ := stop_of_extend closing found sane
    have long := length_le_of_stop closing found opened
    have tag : "</TS".length ≤ cursor.rest.length := by
      rw [show name = "TS".toList from named] at long
      exact long
    rw [behindRoot?_of_event again, if_pos ⟨rfl, rfl, same.trans outside⟩, extend,
      if_neg (by simp [closing]), if_neg (by simp), List.drop_append_of_le_length tag]

/-- What is left behind the first root element is left there when more text follows, if that
is read without a fault. Both cursors read the same events up to there, though the text of
the end tag may go on in the longer document. -/
theorem behindRoot?_extend {cursor : Cursor} (sound : cursor.Sound) {inside : Bool}
    {rest more : List Char}
    (named : inside = true → cursor.opened.getLast? = some "TS".toList)
    (ends : cursor.behindRoot? inside = some rest) {offset : Nat}
    (sane : (cursor.extend more).ending = .ok offset) :
    (cursor.extend more).behindRoot? inside = some (rest ++ more) := by
  induction cursor using induction_next generalizing inside with
  | finished cursor offset found => exact absurd ends (by simp [behindRoot?_of_finished found])
  | fault cursor offset reason found => exact absurd ends (by simp [behindRoot?_of_fault found])
  | event cursor offset event after found ih =>
    obtain ⟨opens, sound'⟩ := tracks_of_event sound found
    rw [behindRoot?_of_event found] at ends
    split at ends
    next ended =>
      obtain ⟨rfl, rfl, none⟩ := ended
      injection ends with ends
      rw [← ends]
      refine behindRoot?_extend_of_stop sound (named rfl) found none fun place fault wrong => ?_
      rw [(events_of_fault wrong).2] at sane
      exact absurd sane (by simp)
    next still =>
      have carries := next_carries cursor more
      rw [found] at carries
      rcases carries with ⟨place, again⟩ | ⟨used, plain⟩
      · rw [ending_of_event again] at sane
        rw [behindRoot?_of_event again,
          if_neg (show ¬(inside = true ∧ event = .stop ∧ (after.extend more).opened = []) from still)]
        exact ih sound' (MarkupEvent.named_of_opens opens named still) ends sane
      · -- The event has used the text up, so nothing is left to end the root element.
        have finished : after.next = .finished after.offset := by
          rw [next, if_neg (by simp [plain]), used]
        rw [behindRoot?_of_finished finished] at ends
        exact absurd ends (by simp)

end Cursor

/-! ## Truncated bytes -/

/-- A byte order mark is left out in front of more text as well. -/
theorem withoutByteOrderMark_append {first : List Char} (inhabited : first ≠ []) (more : List Char) :
    withoutByteOrderMark (first ++ more) = withoutByteOrderMark first ++ more := by
  obtain ⟨c, rest, rfl⟩ := List.exists_cons_of_ne_nil inhabited
  rw [List.cons_append]
  unfold withoutByteOrderMark
  split <;> split <;> simp_all

/-- The cursor in front of more text. -/
theorem Cursor.ofText_append {first : List Char} (inhabited : first ≠ []) (more : List Char) :
    Cursor.ofText (first ++ more) = (Cursor.ofText first).extend more := by
  obtain ⟨c, rest, rfl⟩ := List.exists_cons_of_ne_nil inhabited
  rw [List.cons_append]
  unfold ofText extend
  split <;> split <;> simp_all

/-- Behind an empty text no root element ends. -/
theorem Cursor.behindRoot?_ofText_nil : (Cursor.ofText []).behindRoot? false = none :=
  behindRoot?_of_finished (show (Cursor.ofText []).next = .finished 0 from rfl)

namespace Report

/-- The number of bytes of a document up to the end of the name in the end tag of its
first root element, or of the whole tag if the element closes itself. -/
def rootEnd? (bytes : ByteArray) : Option Nat :=
  match Utf8.decode bytes with
  | .error _ => none
  | .ok text =>
    ((Cursor.ofText (withoutByteOrderMark text.toList)).behindRoot? false).map fun rest =>
      bytes.size - Utf8.length rest

/-- Bytes that can be read encode a text that can be read. -/
theorem exists_text_of_ofBytes {policy : Policy} {bytes : ByteArray} {report : Report}
    (h : ofBytes policy bytes = .ok report) :
    ∃ text : String, text.toUTF8 = bytes ∧ ofText policy text = .ok report := by
  rw [ofBytes] at h
  split at h
  next text decoded => exact ⟨text, Utf8.decode_eq_ok_iff.mp decoded, h⟩
  next => exact absurd h (by simp)

/-- Where there is content, the first root element ends. -/
theorem exists_behindRoot_of_content {text : List Char} {catalog : Catalog}
    (h : contentOf text = .ok catalog) :
    ∃ rest, (Cursor.ofText text).behindRoot? false = some rest := by
  obtain ⟨reached, _⟩ := contentOf_eq_ok h
  have stands : (Reader.Place.document none).Stands false := trivial
  exact Reader.Place.exists_behindRoot (Cursor.sound_ofText text) stands rfl reached

/-- If a document and the front of it can both be read, the root element ends in the front,
at the same place. -/
theorem behindRoot?_of_front {first more rest : List Char} {catalog : Catalog}
    (whole : contentOf (withoutByteOrderMark (first ++ more)) = .ok catalog)
    (front : (Cursor.ofText (withoutByteOrderMark first)).behindRoot? false = some rest) :
    (Cursor.ofText (withoutByteOrderMark (first ++ more))).behindRoot? false =
      some (rest ++ more) := by
  have inner : withoutByteOrderMark first ≠ [] := by
    intro none
    rw [none, Cursor.behindRoot?_ofText_nil] at front
    exact absurd front (by simp)
  have inhabited : first ≠ [] := by
    rintro rfl
    exact inner rfl
  obtain ⟨_, offset, ended⟩ := contentOf_eq_ok whole
  have longer : Cursor.ofText (withoutByteOrderMark (first ++ more)) =
      (Cursor.ofText (withoutByteOrderMark first)).extend more := by
    rw [withoutByteOrderMark_append inhabited, Cursor.ofText_append inner]
  rw [longer] at ended ⊢
  exact Cursor.behindRoot?_extend (Cursor.sound_ofText _) (by simp) front ended

/-- A truncated document is never read. In every document that some policy reads, the
first root element ends, and if a part of the document is cut off that begins before the
end of the name in its end tag, no policy reads what is left. -/
theorem truncated_fails {policy : Policy} {bytes : ByteArray} {report : Report}
    (h : ofBytes policy bytes = .ok report) :
    ∃ e, rootEnd? bytes = some e ∧
      ∀ count < e, ∀ policy', ∃ fault, ofBytes policy' (bytes.extract 0 count) = .error fault := by
  obtain ⟨text, rfl, read⟩ := exists_text_of_ofBytes h
  have content := (of_ofChars read).1
  obtain ⟨behind, ends⟩ := exists_behindRoot_of_content content
  refine ⟨text.toUTF8.size - Utf8.length behind, ?_, ?_⟩
  · rw [rootEnd?, Utf8.decode_eq_ok_iff.mpr rfl]
    simp only [ends, Option.map_some]
  intro count before policy'
  cases cut : ofBytes policy' (text.toUTF8.extract 0 count) with
  | error fault => exact ⟨fault, rfl⟩
  | ok report' =>
    obtain ⟨first, encoded, read'⟩ := exists_text_of_ofBytes cut
    obtain ⟨more, whole⟩ := Utf8.exists_take_of_extract encoded
    obtain ⟨rest, front⟩ := exists_behindRoot_of_content (of_ofChars read').1
    rw [whole] at content ends
    rw [behindRoot?_of_front content front] at ends
    injection ends with ends
    have left : Utf8.length behind = Utf8.length rest + Utf8.length more := by
      rw [← ends, Utf8.length_append]
    have size : text.toUTF8.size = Utf8.length first.toList + Utf8.length more := by
      rw [Utf8.size_toUTF8, whole, Utf8.length_append]
    have short : Utf8.length first.toList = min count text.toUTF8.size := by
      rw [← Utf8.size_toUTF8, encoded, ByteArray.size_extract, Nat.sub_zero]
    omega

/-- The name in this end tag ends behind eight bytes, and nothing shorter can be read. -/
theorem empty_root_truncated_fails :
    rootEnd? "<TS></TS>".toUTF8 = some 8 ∧ ∀ count < 8, ∀ policy, ∃ fault,
      ofBytes policy ("<TS></TS>".toUTF8.extract 0 count) = .error fault := by
  have read : ofBytes .lenient "<TS></TS>".toUTF8 = .ok ⟨⟨"2.0", none, none, []⟩, []⟩ := by
    decide +kernel
  have ends : rootEnd? "<TS></TS>".toUTF8 = some 8 := by
    decide +kernel
  obtain ⟨e, found, fails⟩ := truncated_fails read
  rw [ends] at found
  injection found with same
  exact ⟨ends, same ▸ fails⟩

/-- With the name the end tag is complete, even without its bracket. -/
example : ofBytes .strict ("<TS></TS>".toUTF8.extract 0 8) = .ok ⟨⟨"2.0", none, none, []⟩, []⟩ := by
  decide +kernel

end Report

end MessageCatalog
