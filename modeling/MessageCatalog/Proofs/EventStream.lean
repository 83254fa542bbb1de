import MessageCatalog.CatalogReader

/-!
# The events of a document

Reading a document passes each event to the reader as soon as it is found. The
events do not depend on the reader, so the list of them can be taken first:
what a reader makes of a document is what it makes of that list, and then of
the way in which reading ends.
-/

namespace MessageCatalog

/-- A result has no fault to change. -/
@[simp]
theorem mapError_ok (change : ε → ε') (result : α) :
    (Except.ok result).mapError change = .ok result := rfl

/-- A fault is changed. -/
@[simp]
theorem mapError_error (change : ε → ε') (fault : ε) :
    (Except.error fault : Except ε α).mapError change = .error (change fault) := rfl

namespace Cursor

/-- The events from a cursor on with their places, as far as reading comes. -/
def events (cursor : Cursor) : List (Nat × MarkupEvent) :=
  match _read : cursor.next with
  | .event offset event after => (offset, event) :: events after
  | .finished _ | .fault _ _ => []
termination_by cursor.size
decreasing_by exact next_size_lt _read

/-- How reading ends: at the end of the document, or at a fault. -/
def ending (cursor : Cursor) : Except (Nat × MarkupFault) Nat :=
  match _read : cursor.next with
  | .event _ _ after => ending after
  | .finished offset => .ok offset
  | .fault offset reason => .error (offset, reason)
termination_by cursor.size
decreasing_by exact next_size_lt _read

/-- An event comes before the events of the cursor behind it. -/
theorem events_of_event {cursor after : Cursor} {offset : Nat} {event : MarkupEvent}
    (h : cursor.next = .event offset event after) :
    cursor.events = (offset, event) :: after.events := by
  rw [events]
  split
  next equation =>
    rw [h] at equation
    injection equation with ho he ha
    rw [ho, he, ha]
  next equation => simp [h] at equation
  next equation => simp [h] at equation

/-- An event does not change how reading ends. -/
theorem ending_of_event {cursor after : Cursor} {offset : Nat} {event : MarkupEvent}
    (h : cursor.next = .event offset event after) : cursor.ending = after.ending := by
  rw [ending]
  split
  next equation =>
    rw [h] at equation
    injection equation with _ _ ha
    rw [ha]
  next equation => simp [h] at equation
  next equation => simp [h] at equation

/-- Nothing comes at the end of the document. -/
theorem events_of_finished {cursor : Cursor} {offset : Nat} (h : cursor.next = .finished offset) :
    cursor.events = [] ∧ cursor.ending = .ok offset := by
  constructor
  · rw [events]
    split <;> simp_all
  · rw [ending]
    split <;> simp_all

/-- Nothing comes behind a fault. -/
theorem events_of_fault {cursor : Cursor} {offset : Nat} {reason : MarkupFault}
    (h : cursor.next = .fault offset reason) :
    cursor.events = [] ∧ cursor.ending = .error (offset, reason) := by
  constructor
  · rw [events]
    split <;> simp_all
  · rw [ending]
    split <;> simp_all

/-- Reading from a cursor by the next event: a proof about all cursors may
assume the cursor behind an event to be done. -/
theorem induction_next {motive : Cursor → Prop}
    (event : ∀ cursor offset event after, cursor.next = .event offset event after →
      motive after → motive cursor)
    (finished : ∀ cursor offset, cursor.next = .finished offset → motive cursor)
    (fault : ∀ cursor offset reason, cursor.next = .fault offset reason → motive cursor)
    (cursor : Cursor) : motive cursor := by
  cases h : cursor.next with
  | event offset found after =>
    have ih := induction_next event finished fault after
    exact event cursor offset found after h ih
  | finished offset => exact finished cursor offset h
  | fault offset reason => exact fault cursor offset reason h
termination_by cursor.size
decreasing_by exact next_size_lt h

/-- Folding goes on behind an event that is taken. -/
theorem fold_of_event {cursor after : Cursor} {offset : Nat} {event : MarkupEvent}
    (h : cursor.next = .event offset event after)
    (step : σ → Nat → MarkupEvent → Except ε σ) (fault : Nat → MarkupFault → ε) (state : σ) :
    cursor.fold step fault state =
      (step state offset event).bind fun state => after.fold step fault state := by
  rw [fold]
  split
  next equation => simp [h] at equation
  next equation => simp [h] at equation
  next equation =>
    rw [h] at equation
    injection equation with ho he ha
    subst ho he ha
    cases step state offset event <;> rfl

/-- Folding over a document is folding over the list of its events, and then
looking at how reading ends. -/
theorem fold_eq_foldlM_events (step : σ → Nat → MarkupEvent → Except ε σ)
    (fault : Nat → MarkupFault → ε) (state : σ) (cursor : Cursor) :
    fold step fault state cursor =
      (cursor.events.foldlM (fun state entry => step state entry.1 entry.2) state).bind
        fun state => (cursor.ending.map (·, state)).mapError fun entry =>
          fault entry.1 entry.2 := by
  induction cursor using induction_next generalizing state with
  | event cursor offset event after h ih =>
    rw [events_of_event h, ending_of_event h, fold_of_event h, List.foldlM_cons]
    cases step state offset event with
    | error reason => rfl
    | ok next => exact ih next
  | finished cursor offset h =>
    rw [(events_of_finished h).1, (events_of_finished h).2, fold]
    split <;> simp_all <;> rfl
  | fault cursor offset reason h =>
    rw [(events_of_fault h).1, (events_of_fault h).2, fold]
    split <;> simp_all <;> rfl

end Cursor

end MessageCatalog
