import MessageCatalog.Proofs.ElementNesting
import MessageCatalog.Proofs.MarkupPrefix
import MessageCatalog.Proofs.WrittenMarkup

/-!
# Runs of the cursor

What the cursor reads depends on the characters that it uses up, and on little else.
The offset and the elements around do not matter, nor does the text behind, except that
a run of text goes on up to the next bracket and that the end of the document may stand
for the last bracket of a tag. So a piece of a document that is read to its end is read
alike at any other place.
-/

namespace MessageCatalog

namespace Cursor

/-- Reading goes from a cursor over some events to another cursor. -/
inductive Run : Cursor → List MarkupEvent → Cursor → Prop
  /-- Nothing is read. -/
  | refl (cursor : Cursor) : Run cursor [] cursor
  /-- An event is read before the others. -/
  | event {cursor after last : Cursor} {offset : Nat} {event : MarkupEvent}
    {events : List MarkupEvent} (found : cursor.next = .event offset event after)
    (more : Run after events last) : Run cursor (event :: events) last

namespace Run

/-- One event is read. -/
theorem single {cursor after : Cursor} {offset : Nat} {event : MarkupEvent}
    (found : cursor.next = .event offset event after) : Run cursor [event] after :=
  .event found (.refl after)

/-- Reading goes on. -/
theorem append {first second third : Cursor} {events events' : List MarkupEvent}
    (hf : Run first events second) (hs : Run second events' third) :
    Run first (events ++ events') third := by
  induction hf with
  | refl => exact hs
  | event found _ ih => exact .event found (ih hs)

/-- Reading comes by every place between its events. -/
theorem split {first third : Cursor} {events events' : List MarkupEvent}
    (h : Run first (events ++ events') third) :
    ∃ second, Run first events second ∧ Run second events' third := by
  induction events generalizing first with
  | nil => exact ⟨first, .refl first, h⟩
  | cons event events ih =>
    cases h with
    | event found more =>
      obtain ⟨second, hf, hs⟩ := ih more
      exact ⟨second, .event found hf, hs⟩

/-- The events of a run come first when reading goes on to the end. -/
theorem passes {first last : Cursor} {events : List MarkupEvent} (h : Run first events last) :
    first.Passes events last := by
  induction h with
  | refl cursor => exact .refl cursor
  | event found _ ih => exact (Passes.of_event found).trans ih

/-- A run that comes to the end of the document has read all its events. -/
theorem whole {first last : Cursor} {events : List MarkupEvent} {offset : Nat}
    (h : Run first events last) (ends : last.next = .finished offset) :
    first.events.map Prod.snd = events ∧ first.ending = .ok offset := by
  obtain ⟨none, ended⟩ := events_of_finished ends
  constructor
  · rw [h.passes.events_eq, none, List.map_nil, List.append_nil]
  · rw [h.passes.ending_eq, ended]

/-- A document that is read to its end is read in one run. -/
theorem of_ending {cursor : Cursor} {offset : Nat} (h : cursor.ending = .ok offset) :
    ∃ last, Run cursor (cursor.events.map Prod.snd) last ∧ last.next = .finished offset := by
  induction cursor using induction_next with
  | event cursor place event after found ih =>
    rw [ending_of_event found] at h
    obtain ⟨last, more, ends⟩ := ih h
    rw [events_of_event found, List.map_cons]
    exact ⟨last, .event found more, ends⟩
  | finished cursor place found =>
    obtain ⟨none, ended⟩ := events_of_finished found
    rw [ended] at h
    injection h with same
    rw [none]
    exact ⟨cursor, .refl cursor, same ▸ found⟩
  | fault cursor place reason found =>
    rw [(events_of_fault found).2] at h
    exact absurd h (by simp)

/-- A run makes the cursor smaller. -/
theorem size_le {first last : Cursor} {events : List MarkupEvent} (h : Run first events last) :
    last.size + events.length ≤ first.size := by
  induction h with
  | refl => exact Nat.le_refl _
  | event found _ ih =>
    have := next_size_lt found
    rw [List.length_cons]
    omega

end Run

/-! ## What a construct uses up -/

/-- The characters up to the end of a mark are all that tells where it is. -/
theorem splitAtMark_used {mark before text inside rest : List Char} (some : mark ≠ [])
    (h : splitAtMark mark before text = .some (inside, rest)) :
    ∃ used, text = used ++ rest ∧ used.head? = text.head? ∧
      ∀ rest', splitAtMark mark before (used ++ rest') = .some (inside, rest') := by
  have cut : ∃ used, text = used ++ rest ∧ used.head? = text.head? ∧
      splitAtMark mark before used = .some (inside, []) := by
    induction text generalizing before with
    | nil => simp [splitAtMark] at h
    | cons c text ih =>
      unfold splitAtMark at h
      split at h
      next found =>
        simp only [Option.some.injEq, Prod.mk.injEq] at h
        obtain ⟨behind, split⟩ := List.isPrefixOf_iff_prefix.mp found
        obtain ⟨first, more, rfl⟩ := List.exists_cons_of_ne_nil some
        refine ⟨first :: more, ?_, ?_, ?_⟩
        · rw [← h.2, ← split, List.drop_left]
        · rw [← split]
          rfl
        · rw [splitAtMark, if_pos (List.isPrefixOf_iff_prefix.mpr (List.prefix_refl _)),
            List.drop_length, h.1]
      next missing =>
        obtain ⟨used, split, _, found⟩ := ih h
        refine ⟨c :: used, by rw [split, List.cons_append], rfl, ?_⟩
        rw [splitAtMark, if_neg, found]
        intro shorter
        rw [List.isPrefixOf_iff_prefix] at shorter missing
        refine missing (shorter.trans ?_)
        rw [split, ← List.cons_append]
        exact List.prefix_append _ _
  obtain ⟨used, split, head, found⟩ := cut
  exact ⟨used, split, head, fun rest' => by simpa using splitAtMark_append rest' found⟩

/-- The characters up to its bracket are all that tells where a tag ends. -/
theorem splitTag_used {quote : Option Char} {before text inside rest : List Char}
    (h : splitTag quote before text = some (inside, rest)) :
    ∃ used, text = used ++ rest ∧ used.head? = text.head? ∧
      ∀ rest', splitTag quote before (used ++ rest') = some (inside, rest') := by
  have cut : ∃ used, text = used ++ rest ∧ used.head? = text.head? ∧
      splitTag quote before used = some (inside, []) := by
    induction text generalizing quote before with
    | nil => simp [splitTag] at h
    | cons c text ih =>
      unfold splitTag at h
      cases quote with
      | some q =>
        obtain ⟨used, split, _, found⟩ := ih h
        exact ⟨c :: used, by rw [split, List.cons_append], rfl, by rw [splitTag]; exact found⟩
      | none =>
        dsimp only at h
        split at h
        next ends =>
          simp only [Option.some.injEq, Prod.mk.injEq] at h
          exact ⟨[c], by rw [h.2, List.singleton_append], rfl, by simp [splitTag, ends, h.1]⟩
        next inner =>
          obtain ⟨used, split, _, found⟩ := ih h
          refine ⟨c :: used, by rw [split, List.cons_append], rfl, ?_⟩
          simp only [splitTag, if_neg inner]
          exact found
  obtain ⟨used, split, head, found⟩ := cut
  exact ⟨used, split, head, fun rest' => by simpa using splitTag_append rest' found⟩

/-- The characters up to its bracket are all that tells where a document type ends. -/
theorem splitDoctype_used {depth : Nat} {before text inside rest : List Char}
    (h : splitDoctype depth before text = some (inside, rest)) :
    ∃ used, text = used ++ rest ∧ used.head? = text.head? ∧
      ∀ rest', splitDoctype depth before (used ++ rest') = some (inside, rest') := by
  have cut : ∃ used, text = used ++ rest ∧ used.head? = text.head? ∧
      splitDoctype depth before used = some (inside, []) := by
    induction text generalizing depth before with
    | nil => simp [splitDoctype] at h
    | cons c text ih =>
      unfold splitDoctype at h
      split at h
      next bracket =>
        cases depth with
        | zero =>
          simp only [Option.some.injEq, Prod.mk.injEq] at h
          refine ⟨[c], by rw [h.2, List.singleton_append], rfl, ?_⟩
          simp [splitDoctype, bracket, h.1]
        | succ depth =>
          obtain ⟨used, split, _, found⟩ := ih h
          refine ⟨c :: used, by rw [split, List.cons_append], rfl, ?_⟩
          unfold splitDoctype
          rw [if_pos bracket]
          exact found
      next other =>
        obtain ⟨used, split, _, found⟩ := ih h
        refine ⟨c :: used, by rw [split, List.cons_append], rfl, ?_⟩
        unfold splitDoctype
        rw [if_neg other, found]
  obtain ⟨used, split, head, found⟩ := cut
  exact ⟨used, split, head, fun rest' => by simpa using splitDoctype_append rest' found⟩

/-- What is in front of a bracket is told without what is behind it, unless the end of
the text stands for the bracket. -/
theorem takeWhile_used (text : List Char) :
    ∃ used, text = used ++ (text.dropWhile (· != '>')).drop 1 ∧ used.head? = text.head? ∧
      ∀ rest', ((text.dropWhile (· != '>')).drop 1 = [] → rest' = []) →
        (used ++ rest').takeWhile (· != '>') = text.takeWhile (· != '>') ∧
          ((used ++ rest').dropWhile (· != '>')).drop 1 = rest' := by
  cases behind : text.dropWhile (· != '>') with
  | nil =>
    refine ⟨text, by simp, rfl, fun rest' fits => ?_⟩
    rw [fits rfl, List.append_nil, behind]
    exact ⟨rfl, rfl⟩
  | cons bracket rest =>
    have stops : (bracket != '>') = false := by
      have first := List.head?_dropWhile_not (· != '>') text
      rw [behind] at first
      simpa using first
    have inside (c : Char) (member : c ∈ text.takeWhile (· != '>')) : (c != '>') = true :=
      List.all_eq_true.mp List.all_takeWhile c member
    have whole : text = (text.takeWhile (· != '>') ++ [bracket]) ++ rest := by
      have parts := List.takeWhile_append_dropWhile (p := (· != '>')) (l := text)
      rw [behind] at parts
      rw [List.append_assoc, List.singleton_append, parts]
    refine ⟨text.takeWhile (· != '>') ++ [bracket], whole, ?_, fun rest' _ => ?_⟩
    · conv => rhs; rw [whole]
      simp
    · rw [List.append_assoc, List.singleton_append, takeWhile_append_cons inside stops,
        dropWhile_append_cons inside stops]
      exact ⟨rfl, rfl⟩

/-! ## Reading alike at other places -/

/-- An event leaves a part of a text, and is read alike with other text behind what it
uses up, with more open elements around it and from another offset on. Where it uses
the whole text up, no text may follow. -/
def IsAlike (read : List (List Char) → Nat → List Char → Reading) (opened : List (List Char))
    (text : List Char) (event : MarkupEvent) (after : Cursor) : Prop :=
  ∃ used, text = used ++ after.rest ∧ used.head? = text.head? ∧
    ∀ outer offset rest, (after.rest = [] → rest = []) → ∃ place counted,
      read (opened ++ outer) offset (used ++ rest) =
        .event place event ⟨rest, counted, after.opened ++ outer, after.closing⟩

section

variable {opened : List (List Char)} {offset place : Nat} {text : List Char} {event : MarkupEvent}
  {after : Cursor}

/-- What is read behind a character is read alike. -/
theorem IsAlike.cons {read read' : List (List Char) → Nat → List Char → Reading} {c : Char}
    (alike : IsAlike read opened text event after)
    (same : ∀ opened offset text, read' opened offset (c :: text) = read opened offset text) :
    IsAlike read' opened (c :: text) event after := by
  obtain ⟨used, split, _, again⟩ := alike
  refine ⟨c :: used, by rw [split, List.cons_append], rfl, fun outer offset rest fits => ?_⟩
  rw [List.cons_append, same]
  exact again outer offset rest fits

/-- What is read from a character on is read alike. -/
theorem IsAlike.congr {read read' : List (List Char) → Nat → List Char → Reading} {c : Char}
    (alike : IsAlike read opened (c :: text) event after)
    (same : ∀ opened offset text, read' opened offset (c :: text) = read opened offset (c :: text)) :
    IsAlike read' opened (c :: text) event after := by
  obtain ⟨used, split, head, again⟩ := alike
  obtain ⟨more, rfl⟩ := List.head?_eq_some_iff.mp head
  refine ⟨c :: more, split, head, fun outer offset rest fits => ?_⟩
  rw [List.cons_append, same]
  exact again outer offset rest fits

/-- A comment is read alike. -/
theorem readComment_alike (h : readComment opened offset text = .event place event after) :
    IsAlike readComment opened text event after := by
  unfold readComment at h
  split at h
  · exact absurd h (by simp)
  next second content =>
    split at h
    · exact absurd h (by simp)
    next inside rest found =>
      dsimp only at h
      split at h
      next dash =>
        injection h with _ event after
        subst event after
        obtain ⟨used, split, _, again⟩ := splitAtMark_used (by simp) found
        refine ⟨second :: used, by rw [split, List.cons_append], rfl, fun outer offset rest _ => ?_⟩
        simp only [readComment, List.cons_append, again, dash, if_true]
        exact ⟨_, _, rfl⟩
      · exact absurd h (by simp)

/-- A section of character data is read alike. -/
theorem readData_alike (h : readData opened offset text = .event place event after) :
    IsAlike readData opened text event after := by
  unfold readData at h
  split at h
  · exact absurd h (by simp)
  next inside rest found =>
    dsimp only at h
    split at h
    next named =>
      injection h with _ event after
      subst event after
      obtain ⟨used, split, head, again⟩ := splitAtMark_used (by simp) found
      refine ⟨used, split, head, fun outer offset rest _ => ?_⟩
      simp only [readData, again, if_pos named]
      exact ⟨_, _, rfl⟩
    · exact absurd h (by simp)

/-- A document type is read alike. -/
theorem readDoctype_alike (h : readDoctype opened offset text = .event place event after) :
    IsAlike readDoctype opened text event after := by
  unfold readDoctype at h
  split at h
  · exact absurd h (by simp)
  next inside rest found =>
    dsimp only at h
    split at h
    next named =>
      split at h
      · exact absurd h (by simp)
      next solid =>
        injection h with _ event after
        subst event after
        obtain ⟨used, split, head, again⟩ := splitDoctype_used found
        refine ⟨used, split, head, fun outer offset rest _ => ?_⟩
        simp only [readDoctype, again, if_pos named, if_neg solid]
        exact ⟨_, _, rfl⟩
    · exact absurd h (by simp)

/-- Whatever stands behind an exclamation mark is read alike. -/
theorem readBang_alike (h : readBang opened offset text = .event place event after) :
    IsAlike readBang opened text event after := by
  unfold readBang at h
  split at h
  · exact absurd h (by simp)
  · exact (readComment_alike h).cons fun _ _ _ => rfl
  · exact (readData_alike h).cons fun _ _ _ => rfl
  next c text notDash notBracket =>
    split at h
    next letter =>
      refine (readDoctype_alike h).congr fun _ _ _ => ?_
      rcases letter with rfl | rfl <;> rfl
    · exact absurd h (by simp)

/-- An end tag is read alike. -/
theorem readEnd_alike (h : readEnd opened offset text = .event place event after) :
    IsAlike readEnd opened text event after := by
  unfold readEnd at h
  dsimp only at h
  split at h
  · exact absurd h (by simp)
  next expected inner =>
    split at h
    next own =>
      injection h with _ event after
      subst event after
      obtain ⟨used, split, head, again⟩ := takeWhile_used text
      refine ⟨used, split, head, fun outer offset rest fits => ?_⟩
      obtain ⟨content, behind⟩ := again rest fits
      simp only [readEnd, List.cons_append, content, behind, if_pos own]
      exact ⟨_, _, rfl⟩
    · exact absurd h (by simp)

/-- An instruction is read alike. -/
theorem readInstruction_alike (h : readInstruction opened offset text = .event place event after) :
    IsAlike readInstruction opened text event after := by
  unfold readInstruction at h
  dsimp only at h
  split at h
  next marked =>
    injection h with _ event after
    subst event after
    obtain ⟨used, split, head, again⟩ := takeWhile_used text
    refine ⟨used, split, head, fun outer offset rest fits => ?_⟩
    obtain ⟨content, behind⟩ := again rest fits
    simp only [readInstruction, content, behind, if_pos marked]
    exact ⟨_, _, rfl⟩
  · exact absurd h (by simp)

/-- A start tag is read alike. -/
theorem readStart_alike (h : readStart opened offset text = .event place event after) :
    IsAlike readStart opened text event after := by
  unfold readStart at h
  split at h
  · exact absurd h (by simp)
  next content rest found =>
    injection h with _ event after
    subst event after
    obtain ⟨used, split, head, again⟩ := splitTag_used found
    refine ⟨used, split, head, fun outer offset rest _ => ?_⟩
    simp only [readStart, again]
    exact ⟨_, _, rfl⟩

/-- Markup is read alike. -/
theorem readMarkup_alike (h : readMarkup opened offset text = .event place event after) :
    IsAlike readMarkup opened text event after := by
  unfold readMarkup at h
  split at h
  · exact absurd h (by simp)
  · exact (readBang_alike h).cons fun _ _ _ => rfl
  · exact (readEnd_alike h).cons fun _ _ _ => rfl
  · exact (readInstruction_alike h).cons fun _ _ _ => rfl
  next some notBang notSlash notQuestion =>
    obtain ⟨c, more, rfl⟩ := List.exists_cons_of_ne_nil some
    refine (readStart_alike h).congr fun opened offset text => ?_
    unfold readMarkup
    split <;> simp_all

end

end Cursor

/-- Whether an event that leaves a text may leave another one. A run of text is told by
the bracket behind it, and anything else may end with the document. -/
def MarkupEvent.Fits (event : MarkupEvent) (rest rest' : List Char) : Prop :=
  match event with
  | text _ => rest'.head? = rest.head?
  | data _ | declaration _ | remark | start _ | stop => rest = [] → rest' = []

/-- At the end of the document nothing else may be left. -/
theorem MarkupEvent.Fits.eq_nil {event : MarkupEvent} {rest : List Char}
    (fits : event.Fits [] rest) : rest = [] := by
  cases event with
  | text => exact List.head?_eq_none_iff.mp fits
  | data | declaration | remark | start | stop => exact fits rfl

/-- Any event may leave a text that begins with the same character. -/
theorem MarkupEvent.Fits.of_head {event : MarkupEvent} {rest rest' : List Char}
    (same : rest'.head? = rest.head?) : event.Fits rest rest' := by
  cases event with
  | text => exact same
  | data | declaration | remark | start | stop =>
    rintro rfl
    exact List.head?_eq_none_iff.mp same

/-- What is not text may leave any text instead of one that is not at its end. -/
theorem MarkupEvent.Fits.of_not_text {event : MarkupEvent} {rest rest' : List Char}
    (other : ∀ run, event ≠ .text run) (some : rest ≠ []) : event.Fits rest rest' := by
  cases event with
  | text run => exact absurd rfl (other run)
  | data | declaration | remark | start | stop => exact fun none => absurd none some

namespace Cursor

/-- Markup is no run of text. -/
theorem readMarkup_ne_text {opened : List (List Char)} {offset place : Nat} {text run : List Char}
    {after : Cursor} : readMarkup opened offset text ≠ .event place (.text run) after := by
  unfold readMarkup readBang readComment readData readDoctype readEnd readInstruction readStart
  dsimp only
  repeat' split
  all_goals simp

/-- How a run of text stands in a document. -/
structure TextRun (cursor : Cursor) (run : List Char) (after : Cursor) : Prop where
  /-- The run is in front of what it leaves. -/
  split : cursor.rest = run ++ after.rest
  /-- The same elements are open behind it. -/
  opened : after.opened = cursor.opened
  /-- No end is due before it. -/
  before : cursor.closing = false
  /-- No end is due behind it. -/
  behind : after.closing = false
  /-- It has a character. -/
  some : run ≠ []
  /-- It has no bracket. -/
  plain : ∀ c ∈ run, c ≠ '<'
  /-- Markup is behind it, or the end of the document. -/
  bracket : ∀ c ∈ after.rest.head?, c = '<'

/-- Every event of text is a run of text. -/
theorem textRun_of_event {cursor after : Cursor} {place : Nat} {run : List Char}
    (found : cursor.next = .event place (.text run) after) : TextRun cursor run after := by
  unfold next at found
  split at found
  · exact absurd found (by simp)
  next still =>
    split at found
    · exact absurd found (by simp)
    · exact absurd found readMarkup_ne_text
    next first more solid rest =>
      injection found with _ event after
      injection event with event
      subst event after
      refine ⟨?_, rfl, by simpa using still, rfl, by simp, fun c member => ?_, fun c member => ?_⟩
      · rw [rest, List.cons_append, List.takeWhile_append_dropWhile]
      · rcases List.mem_cons.mp member with rfl | later
        · exact solid
        · simpa using List.all_eq_true.mp List.all_takeWhile c later
      · have stops := List.head?_dropWhile_not (· != '<') more
        rw [show _ = some c from member] at stops
        simpa using stops

/-- An event is read alike at another place. -/
theorem next_alike {cursor after : Cursor} {place : Nat} {event : MarkupEvent}
    (sound : cursor.Sound) (found : cursor.next = .event place event after) :
    ∃ used, cursor.rest = used ++ after.rest ∧
      ∀ outer offset rest, event.Fits after.rest rest → ∃ place' counted,
        next ⟨used ++ rest, offset, cursor.opened ++ outer, cursor.closing⟩ =
          .event place' event ⟨rest, counted, after.opened ++ outer, after.closing⟩ := by
  obtain ⟨text, reached, opened, closing⟩ := cursor
  cases closing with
  | true =>
    obtain ⟨name, inner, rfl⟩ := List.exists_cons_of_ne_nil (sound rfl)
    injection found with _ event after
    subst event after
    exact ⟨[], rfl, fun outer offset rest _ => ⟨_, _, rfl⟩⟩
  | false =>
    cases text with
    | nil => exact absurd found (by simp [next])
    | cons first more =>
      by_cases bracket : first = '<'
      · subst bracket
        obtain ⟨used, split, _, again⟩ :=
          readMarkup_alike (show readMarkup opened (reached + 1) more = _ from found)
        refine ⟨'<' :: used, by rw [split, List.cons_append], fun outer offset rest fits => ?_⟩
        exact again outer (offset + 1) rest (by rintro none; exact (none ▸ fits).eq_nil)
      · obtain ⟨run, same⟩ : ∃ run, event = .text run := by
          simp only [next, Bool.false_eq_true, if_false] at found
          injection found with _ event _
          exact ⟨_, event.symm⟩
        subst same
        have text := textRun_of_event found
        refine ⟨run, text.split, fun outer offset rest fits => ?_⟩
        rw [text.opened, text.behind]
        refine next_text text.some text.plain (opened ++ outer) offset fun c member => ?_
        rw [show rest.head? = after.rest.head? from fits] at member
        exact text.bracket c member

/-- What is left at the end of a run fits what may be left behind its first event. -/
theorem Run.fits {cursor after last : Cursor} {place : Nat} {event : MarkupEvent}
    {events : List MarkupEvent} (found : cursor.next = .event place event after)
    (more : Run after events last) {used rest : List Char} (split : after.rest = used ++ last.rest)
    (fits : ∀ final ∈ (event :: events).getLast?, final.Fits last.rest rest) :
    event.Fits after.rest (used ++ rest) := by
  cases more with
  | refl =>
    obtain rfl : used = [] := by simpa using split
    exact fits event rfl
  | event found' more =>
    have shorter := (Run.event found' more).size_le
    have left : last.rest = [] → rest = [] := by
      intro none
      rw [none] at fits
      exact (fits _ (List.getLast?_eq_some_getLast (List.cons_ne_nil _ _))).eq_nil
    cases event with
    | text run =>
      have still : after.closing = false := (textRun_of_event found).behind
      have some : used ≠ [] := by
        rintro rfl
        simp [size, split, still] at shorter
        omega
      obtain ⟨first, used, rfl⟩ := List.exists_cons_of_ne_nil some
      rw [split]
      rfl
    | data | declaration | remark | start | stop =>
      intro none
      rw [split, List.append_eq_nil_iff] at none
      rw [none.1, left none.2, List.append_nil]

/-- A run is read alike at another place. -/
theorem Run.alike {cursor last : Cursor} {events : List MarkupEvent} (sound : cursor.Sound)
    (run : Run cursor events last) :
    ∃ used, cursor.rest = used ++ last.rest ∧
      ∀ outer offset rest, (∀ final ∈ events.getLast?, final.Fits last.rest rest) → ∃ counted,
        Run ⟨used ++ rest, offset, cursor.opened ++ outer, cursor.closing⟩ events
          ⟨rest, counted, last.opened ++ outer, last.closing⟩ := by
  induction run with
  | refl cursor => exact ⟨[], rfl, fun outer offset rest _ => ⟨offset, .refl _⟩⟩
  | event found more ih =>
    obtain ⟨used, split, again⟩ := next_alike sound found
    obtain ⟨used', split', again'⟩ := ih (tracks_of_event sound found).2
    refine ⟨used ++ used', by rw [split, split', List.append_assoc], fun outer offset rest fits => ?_⟩
    obtain ⟨place, between, first⟩ := again outer offset (used' ++ rest) (more.fits found split' fits)
    obtain ⟨counted, others⟩ := again' outer between rest fun final member =>
      fits final (by rw [List.getLast?_cons, show _ = some final from member]; rfl)
    rw [List.append_assoc]
    exact ⟨counted, .event first others⟩

/-- More text in front of markup joins the run of text before it, or is a run of its own. -/
theorem Run.join_text {cursor last : Cursor} {events : List MarkupEvent} (sound : cursor.Sound)
    (run : Run cursor events last) (still : last.closing = false)
    (bracket : last.rest.head? = some '<') {more : List Char} (some : more ≠ [])
    (plain : ∀ c ∈ more, c ≠ '<') :
    ∃ used, cursor.rest = used ++ last.rest ∧
      ∃ events', (events' = events ++ [.text more] ∨ ∃ before text,
          events = before ++ [.text text] ∧ events' = before ++ [.text (text ++ more)]) ∧
        ∀ offset, ∃ counted, Run ⟨used ++ (more ++ last.rest), offset, cursor.opened, cursor.closing⟩
          events' ⟨last.rest, counted, last.opened, false⟩ := by
  have front (c : Char) (member : c ∈ last.rest.head?) : c = '<' := by
    rw [bracket] at member
    exact (Option.some.inj member).symm
  by_cases joins : ∃ before text, events = before ++ [.text text]
  · obtain ⟨before, text, rfl⟩ := joins
    obtain ⟨middle, first, second⟩ := run.split
    cases second with
    | event found none =>
      cases none
      have run := textRun_of_event found
      obtain ⟨used, split, again⟩ := first.alike sound
      refine ⟨used ++ text, by rw [split, run.split, List.append_assoc], _,
        .inr ⟨before, text, rfl, rfl⟩, fun offset => ?_⟩
      obtain ⟨between, first⟩ := again [] offset (text ++ (more ++ last.rest)) fun final _ => by
        obtain ⟨c, text, rfl⟩ := List.exists_cons_of_ne_nil run.some
        exact .of_head (by rw [run.split]; rfl)
      have longer : ∀ c ∈ text ++ more, c ≠ '<' := by
        intro c member
        rcases List.mem_append.mp member with before | behind
        · exact run.plain c before
        · exact plain c behind
      obtain ⟨_, counted, joined⟩ := next_text (by simp [run.some]) longer middle.opened between front
      rw [List.append_nil, List.append_nil, run.before] at first
      rw [List.append_assoc] at joined ⊢
      rw [run.opened]
      exact ⟨counted, first.append (.single joined)⟩
  · obtain ⟨used, split, again⟩ := run.alike sound
    refine ⟨used, split, _, .inl rfl, fun offset => ?_⟩
    obtain ⟨between, first⟩ := again [] offset (more ++ last.rest) fun final member => by
      refine .of_not_text (fun text same => joins ?_) (by rintro none; simp [none] at bracket)
      obtain ⟨before, split⟩ := List.getLast?_eq_some_iff.mp member
      exact ⟨before, text, same ▸ split⟩
    obtain ⟨_, counted, own⟩ := next_text some plain last.opened between front
    rw [List.append_nil, List.append_nil, still] at first
    exact ⟨counted, first.append (.single own)⟩

/-- Where the document ends does not depend on what was read before. -/
theorem finished_alike {cursor : Cursor} {place : Nat} (h : cursor.next = .finished place)
    (offset : Nat) (opened : List (List Char)) :
    ∃ place', next ⟨cursor.rest, offset, opened, cursor.closing⟩ = .finished place' := by
  have markup {opened : List (List Char)} {place place' : Nat} {text : List Char}
      (some : text ≠ []) : readMarkup opened place text ≠ .finished place' := by
    unfold readMarkup readBang readComment readData readDoctype readEnd readInstruction readStart
    dsimp only
    repeat' split
    all_goals simp_all
  unfold next at h ⊢
  split at h
  · exact absurd h (by simp)
  next still =>
    rw [if_neg still]
    split at h
    next none =>
      rw [none]
      exact ⟨offset, rfl⟩
    next rest bracket =>
      cases rest with
      | nil =>
        rw [bracket]
        exact ⟨offset + 1, rfl⟩
      | cons c more => exact absurd h (markup (List.cons_ne_nil c more))
    · exact absurd h (by simp)

/-- A run to the end of the document is one from another offset on as well. -/
theorem Run.alike_to_end {cursor last : Cursor} {events : List MarkupEvent} {place : Nat}
    (sound : cursor.Sound) (run : Run cursor events last) (ends : last.next = .finished place)
    (offset : Nat) :
    ∃ last' place', Run { cursor with offset := offset } events last' ∧
      last'.next = .finished place' := by
  obtain ⟨used, split, again⟩ := run.alike sound
  obtain ⟨counted, same⟩ := again [] offset last.rest fun final _ => .of_head rfl
  obtain ⟨place', ends'⟩ := finished_alike ends counted (last.opened ++ [])
  rw [← split, List.append_nil] at same
  exact ⟨_, place', same, ends'⟩

end Cursor

end MessageCatalog
