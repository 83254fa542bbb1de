import MessageCatalog.Proofs.ElementCalls

/-!
# The events that are asked for

Whatever call a loop belongs to, it asks for an event behind the last one that any loop has
got. The open elements at that point are those around the place of the reader and those
that the loop has counted. No loop goes on when there is no event for it, so of all that
are asked for only the last may be missing.
-/

namespace MessageCatalog

namespace Reader

/-- Reading has come from one cursor to another by the events that were asked for, the
latest first. -/
inductive Chained (first : Cursor) : List Request → Cursor → Prop
  /-- None was asked for. -/
  | start : Chained first [] first
  /-- One was asked for behind the others. -/
  | event {requests : List Request} {request : Request} {offset : Nat} {event : MarkupEvent}
    {after : Cursor} (earlier : Chained first requests request.cursor)
    (read : request.cursor.next = .event offset event after) :
    Chained first (request :: requests) after

/-- Every event that is asked for makes the cursor smaller. -/
theorem Chained.length_le {first cursor : Cursor} {requests : List Request}
    (h : Chained first requests cursor) : cursor.size + requests.length ≤ first.size := by
  induction h with
  | start => exact Nat.le_refl _
  | event _ read ih =>
    have lt := Cursor.next_size_lt read
    rw [List.length_cons]
    omega

/-- The open elements are those around the place and those that were counted. -/
structure Request.Level (request : Request) : Prop where
  /-- The cursor knows the element whose end is due. -/
  sound : request.cursor.Sound
  /-- The counter is not below zero. -/
  counted : 0 ≤ request.counter
  /-- Only the loop that passes over an element counts. -/
  skips : request.counter ≠ 0 → request.place.skips = true
  /-- The elements around the place and those counted are open. -/
  deep : (request.cursor.opened.length : Int) = request.place.depth + request.counter

/-- Outside every element no end tag can be read. -/
theorem Request.Level.not_stop {request : Request} (h : request.Level) {catalog : Option Catalog}
    (outside : request.place = .document catalog) (offset : Nat) (after : Cursor) :
    request.cursor.next ≠ .event offset .stop after := by
  intro read
  have uncounted : request.counter = 0 := by
    by_contra counting
    have skips := h.skips counting
    rw [outside] at skips
    exact absurd skips (by simp [Place.skips])
  obtain ⟨⟨name, opened⟩, _⟩ := Cursor.tracks_of_event h.sound read
  have deep := h.deep
  rw [outside, uncounted, opened] at deep
  simp [Place.depth] at deep
  omega

/-- Behind an event as many elements are open as it leads to. -/
theorem Request.Level.opened_behind {request : Request} (h : request.Level) {offset : Nat}
    {event : MarkupEvent} {after : Cursor}
    (read : request.cursor.next = .event offset event after) :
    after.Sound ∧ after.opened.length = event.depthBehind request.cursor.opened.length := by
  obtain ⟨opens, sound⟩ := Cursor.tracks_of_event h.sound read
  exact ⟨sound, (MarkupEvent.depthBehind_of_opens opens).symm⟩

/-- An event leads the reader to where the open elements are those around it. -/
theorem Request.Level.behind {place next : Place} {cursor after : Cursor}
    (h : Request.Level ⟨place, 0, cursor⟩) {offset : Nat} {event : MarkupEvent}
    (read : cursor.next = .event offset event after)
    (taken : (place.take event).outcome = .ok next) : Request.Level ⟨next, 0, after⟩ := by
  obtain ⟨sound, opened⟩ := h.opened_behind read
  have deep := h.deep
  dsimp only at opened deep
  have same : cursor.opened.length = place.depth := by omega
  refine ⟨sound, Int.le_refl 0, fun counting => absurd rfl counting, ?_⟩
  dsimp only
  rw [opened, same, Place.take_depth taken, Int.add_zero]

/-- Where an element is passed over, the counter keeps up with the open elements. -/
theorem Request.Level.counts {place : Place} {counter : Int} {cursor after : Cursor}
    (h : Request.Level ⟨place, counter, cursor⟩) (skips : place.skips = true) {offset : Nat}
    {event : MarkupEvent} (read : cursor.next = .event offset event after) {counter' : Int}
    (counted : 0 ≤ counter')
    (deep : (event.depthBehind cursor.opened.length : Int) = place.depth + counter') :
    Request.Level ⟨place, counter', after⟩ := by
  obtain ⟨sound, opened⟩ := h.opened_behind read
  exact ⟨sound, counted, fun _ => skips, by rw [← deep, opened]⟩

/-- Reading has gone on without a break so far. -/
structure Progress.Follows (first : Cursor) (progress : Progress) : Prop where
  /-- Every event that was asked for has been read. -/
  chained : Chained first progress.requests progress.cursor
  /-- The open elements were always those around the reader. -/
  level : ∀ request ∈ progress.requests, request.Level

/-- Reading has ended: it went on without a break to the event that was asked for last. -/
def Ended (first : Cursor) (requests : List Request) : Prop :=
  (∃ last earlier, requests = last :: earlier ∧ Chained first earlier last.cursor) ∧
    ∀ request ∈ requests, request.Level

/-- Before the first event reading has gone on without a break. -/
theorem Progress.follows_start (text : List Char) :
    (start text).Follows (Cursor.ofText text) :=
  ⟨.start, fun _ member => absurd member List.not_mem_nil⟩

namespace Progress.Follows

variable {first : Cursor} {progress : Progress} {place : Place} {counter : Int}

/-- An event may be the last that is asked for. -/
theorem ended (h : progress.Follows first) (here : Request.Level ⟨place, counter, progress.cursor⟩) :
    Ended first (⟨place, counter, progress.cursor⟩ :: progress.requests) := by
  refine ⟨⟨_, _, rfl, h.chained⟩, fun request member => ?_⟩
  rcases List.mem_cons.mp member with rfl | earlier
  · exact here
  · exact h.level request earlier

/-- Where an event is read, reading goes on. -/
theorem behind (h : progress.Follows first)
    (here : Request.Level ⟨place, counter, progress.cursor⟩) {offset : Nat} {event : MarkupEvent}
    {after : Cursor} (read : progress.cursor.next = .event offset event after)
    (noted : Array (Nat × Irregularity)) :
    (progress.behind place counter after noted).Follows first :=
  ⟨.event h.chained read, (h.ended here).2⟩

end Progress.Follows

/-- Reading has ended in a call, or goes on without a break where the call returns. -/
def Call.Follows (first : Cursor) (call : Call Place) : Prop :=
  match call.outcome with
  | .error _ => Ended first call.progress.requests
  | .ok next => call.progress.Follows first ∧ Request.Level ⟨next, 0, call.progress.cursor⟩

/-- The same of a call that passes over the content of an element at some place. -/
def Call.Passes (first : Cursor) (place : Place) (call : Call Nat) : Prop :=
  Ended first call.progress.requests ∧
    ∀ offset, call.outcome = .ok offset → call.progress.Follows first ∧
      call.progress.cursor.Sound ∧ call.progress.cursor.opened.length = place.depth - 1

/-- Reading goes on without a break over an element that is passed over. The counter never
falls below zero, and the end that is returned closes the element. -/
theorem skipElement_passes {first : Cursor} {place : Place} (skips : place.skips = true)
    {counter : Int} {progress : Progress} (follows : progress.Follows first)
    (here : Request.Level ⟨place, counter, progress.cursor⟩) :
    (skipElement place counter progress).Passes first place := by
  induction progress using Progress.induction_next generalizing counter with
  | event progress offset event after read ih =>
    have counted : 0 ≤ counter := here.counted
    have deep : (progress.cursor.opened.length : Int) = place.depth + counter := here.deep
    have goes := follows.behind here read progress.noted
    have later (counter' : Int) := @ih _ rfl counter' goes
    rw [skipElement_of_event read]
    cases event with
    | start tag =>
      refine later (counter + 1) (here.counts skips read (Int.le_add_one counted) ?_)
      change ((progress.cursor.opened.length + 1 : Nat) : Int) = place.depth + (counter + 1)
      omega
    | stop =>
      dsimp only
      by_cases none : counter = 0
      · obtain ⟨sound, opened⟩ := here.opened_behind read
        have level : progress.cursor.opened.length = place.depth := by omega
        rw [if_pos none]
        exact ⟨follows.ended here, fun _ _ =>
          ⟨goes, sound, opened.trans (congrArg MarkupEvent.stop.depthBehind level)⟩⟩
      · rw [if_neg none]
        refine later (counter - 1) (here.counts skips read (by omega) ?_)
        change ((progress.cursor.opened.length - 1 : Nat) : Int) = place.depth + (counter - 1)
        omega
    | text | data | declaration | remark =>
      exact later counter (here.counts skips read counted deep)
  | finished progress offset read =>
    rw [skipElement_of_finished read]
    exact ⟨follows.ended here, fun _ returned => absurd returned (by simp)⟩
  | fault progress offset reason read =>
    rw [skipElement_of_fault read]
    exact ⟨follows.ended here, fun _ returned => absurd returned (by simp)⟩

/-- So it does if the end is taken. -/
theorem skipContent_follows {first : Cursor} (policy : Policy) {place : Place}
    (skips : place.skips = true) {progress : Progress} (follows : progress.Follows first)
    (here : Request.Level ⟨place, 0, progress.cursor⟩) :
    (skipContent policy place progress).Follows first := by
  obtain ⟨ended, passed⟩ := skipElement_passes skips follows here
  unfold skipContent
  dsimp only
  split
  · exact ended
  next offset returned =>
    obtain ⟨goes, sound, opened⟩ := passed offset returned
    split
    · exact ended
    next next noted taken =>
      have left := Place.take_depth (State.take_of_advance taken)
      refine ⟨⟨goes.chained, goes.level⟩, sound, Int.le_refl 0,
        fun counting => absurd rfl counting, ?_⟩
      dsimp only
      rw [opened, left, Int.add_zero]
      rfl

/-- Reading goes on without a break over the content of an element. -/
theorem Content.follows {first : Cursor} {policy : Policy} {place : Place} {progress : Progress}
    {call : Call Place} (h : Content policy place progress call)
    (follows : progress.Follows first) (here : Request.Level ⟨place, 0, progress.cursor⟩) :
    call.Follows first := by
  induction h with
  | skipped skips => exact skipContent_follows policy skips follows here
  | finished read => exact follows.ended here
  | fault read => exact follows.ended here
  | refused read taken => exact follows.ended here
  | stopped read taken =>
    exact ⟨follows.behind here read _, here.behind read (State.take_of_advance taken)⟩
  | passed read piece taken more ih =>
    exact ih (follows.behind here read _) (here.behind read (State.take_of_advance taken))
  | broken read taken inside ih =>
    exact ih (follows.behind here read _) (here.behind read (State.take_of_advance taken))
  | returned read taken inside more ih ih' =>
    have ⟨follows', here'⟩ :=
      ih (follows.behind here read _) (here.behind read (State.take_of_advance taken))
    exact ih' follows' here'

/-- Reading goes on without a break up to the end of a document. -/
theorem Document.ended {first : Cursor} {policy : Policy} {place : Place} {progress : Progress}
    {call : Call Catalog} (h : Document policy place progress call)
    (follows : progress.Follows first) (here : Request.Level ⟨place, 0, progress.cursor⟩) :
    Ended first call.progress.requests := by
  induction h with
  | finished read => exact follows.ended here
  | fault read => exact follows.ended here
  | refused read taken => exact follows.ended here
  | passed read other taken more ih =>
    exact ih (follows.behind here read _) (here.behind read (State.take_of_advance taken))
  | broken read taken inside =>
    exact inside.follows (follows.behind here read _)
      (here.behind read (State.take_of_advance taken))
  | returned read taken inside more ih =>
    have ⟨follows', here'⟩ := inside.follows (follows.behind here read _)
      (here.behind read (State.take_of_advance taken))
    exact ih follows' here'

/-- A document is read without a break from its start to the last event that is asked for. -/
theorem ended_readDocument (policy : Policy) (text : List Char) :
    Ended (Cursor.ofText text)
      (readDocument policy (.document none) (.start text)).progress.requests := by
  have here : Request.Level ⟨.document none, 0, Cursor.ofText text⟩ :=
    ⟨Cursor.sound_ofText text, Int.le_refl 0, fun counting => absurd rfl counting, rfl⟩
  exact (document_readDocument policy _ _).ended (Progress.follows_start text) here

end Reader

end MessageCatalog
