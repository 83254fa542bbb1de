import MessageCatalog.Proofs.EventStream

/-!
# The two policies agree

The reader moves from place to place without regard to the policy. What it
notices on the way is one list for both policies: the lenient policy keeps the
whole list as warnings, the strict policy ends the reading at the head of the
list. Where the list is empty, the two read the same.
-/

namespace MessageCatalog

namespace Reader

/-- Where the events take a reader, or the first fatal fault on the way. -/
def Place.reached (place : Place) : List (Nat × MarkupEvent) → Except (Nat × Fatal) Place
  | [] => .ok place
  | (offset, event) :: rest =>
    match (place.take event).outcome with
    | .ok next => next.reached rest
    | .error fatal => .error (offset, fatal)

/-- The irregularities that a reader notices over some events, up to the first
fatal fault. -/
def Place.noted (place : Place) : List (Nat × MarkupEvent) → List (Nat × Irregularity)
  | [] => []
  | (offset, event) :: rest =>
    (place.take event).notes.map (offset, ·) ++
      match (place.take event).outcome with
      | .ok next => next.noted rest
      | .error _ => []

/-- Notes of one event are added one by one. -/
theorem foldl_push_notes (offset : Nat) (notes : List Irregularity)
    (before : Array (Nat × Irregularity)) :
    notes.foldl (fun noted reason => noted.push (offset, reason)) before =
      before ++ (notes.map (offset, ·)).toArray := by
  induction notes generalizing before with
  | nil => simp
  | cons reason notes ih => rw [List.foldl_cons, ih]; simp

/-- One event under the lenient policy. -/
theorem State.advance_lenient (state : State) (offset : Nat) (event : MarkupEvent) :
    state.advance .lenient offset event =
      match (state.place.take event).outcome with
      | .ok place =>
        .ok ⟨place, state.noted ++ ((state.place.take event).notes.map (offset, ·)).toArray⟩
      | .error fatal => .error (offset, fatal) := by
  unfold advance
  simp only [foldl_push_notes]
  cases (state.place.take event).outcome <;> rfl

/-- One event under the strict policy. -/
theorem State.advance_strict (state : State) (offset : Nat) (event : MarkupEvent) :
    state.advance .strict offset event =
      match (state.place.take event).notes with
      | reason :: _ => .error (offset, .irregular reason)
      | [] =>
        match (state.place.take event).outcome with
        | .ok place => .ok ⟨place, state.noted⟩
        | .error fatal => .error (offset, fatal) := by
  unfold advance
  dsimp only
  cases (state.place.take event).notes with
  | nil => cases (state.place.take event).outcome <;> rfl
  | cons reason rest => rfl

/-- The lenient policy goes the whole way and keeps all that is noted. -/
theorem State.foldlM_lenient (state : State) (events : List (Nat × MarkupEvent)) :
    events.foldlM (fun state entry => State.advance .lenient state entry.1 entry.2) state =
      (state.place.reached events).map fun place =>
        ⟨place, state.noted ++ (state.place.noted events).toArray⟩ := by
  induction events generalizing state with
  | nil => simp [Place.reached, Place.noted, Except.map, pure, Except.pure]
  | cons entry rest ih =>
    obtain ⟨offset, event⟩ := entry
    rw [List.foldlM_cons, State.advance_lenient, Place.reached, Place.noted]
    cases (state.place.take event).outcome with
    | error fatal => rfl
    | ok next =>
      have tail := ih ⟨next, state.noted ++ ((state.place.take event).notes.map (offset, ·)).toArray⟩
      simp only [Array.append_assoc, List.append_toArray] at tail
      exact tail

/-- The strict policy ends at the first thing that is noted; if there is none,
it goes the whole way. -/
theorem State.foldlM_strict (state : State) (events : List (Nat × MarkupEvent)) :
    events.foldlM (fun state entry => State.advance .strict state entry.1 entry.2) state =
      match state.place.noted events with
      | (offset, reason) :: _ => .error (offset, .irregular reason)
      | [] => (state.place.reached events).map (⟨·, state.noted⟩) := by
  induction events generalizing state with
  | nil => rfl
  | cons entry rest ih =>
    obtain ⟨offset, event⟩ := entry
    rw [List.foldlM_cons, State.advance_strict, Place.reached, Place.noted]
    cases (state.place.take event).notes with
    | cons reason notes => rfl
    | nil =>
      cases (state.place.take event).outcome with
      | error fatal => rfl
      | ok next => exact ih ⟨next, state.noted⟩

end Reader

namespace Report

/-- The events of a document. -/
def eventsOf (text : List Char) : List (Nat × MarkupEvent) := (Cursor.ofText text).events

/-- All that is irregular in a document, up to the first fatal fault. -/
def irregularities (text : List Char) : List Warning :=
  ((Reader.Place.document none).noted (eventsOf text)).map fun entry =>
    ⟨Position.ofOffset text entry.1, entry.2⟩

/-- What a document holds if irregularities do not count, or its first fatal
fault. -/
def contentOf (text : List Char) : Except (Nat × Reader.Fatal) Catalog :=
  ((Reader.Place.document none).reached (eventsOf text)).bind fun place =>
    ((Cursor.ofText text).ending.mapError fun entry => (entry.1, .malformed entry.2)).bind
      fun offset => place.finish.mapError (offset, ·)

/-- The lenient policy reports the content with all irregularities. -/
theorem ofChars_lenient (text : List Char) :
    ofChars .lenient text =
      match contentOf text with
      | .ok catalog => .ok ⟨catalog, irregularities text⟩
      | .error (offset, fatal) => .error (fatal.at (Position.ofOffset text offset)) := by
  unfold ofChars contentOf irregularities eventsOf
  dsimp only
  rw [Cursor.fold_eq_foldlM_events, Reader.State.foldlM_lenient]
  dsimp only [Reader.State.initial]
  cases (Reader.Place.document none).reached (Cursor.ofText text).events with
  | error reason => rfl
  | ok place =>
    cases (Cursor.ofText text).ending with
    | error entry => rfl
    | ok offset =>
      simp only [Except.map, Except.bind, mapError_ok]
      cases place.finish with
      | error fatal => rfl
      | ok catalog => simp

/-- The strict policy refuses a document for its first irregularity, and reads
it as the lenient policy does if there is none. -/
theorem ofChars_strict (text : List Char) :
    ofChars .strict text =
      match irregularities text with
      | first :: _ => .error (.irregular first.position first.reason)
      | [] => ofChars .lenient text := by
  rw [ofChars_lenient]
  unfold ofChars contentOf irregularities eventsOf
  dsimp only
  rw [Cursor.fold_eq_foldlM_events, Reader.State.foldlM_strict]
  dsimp only [Reader.State.initial]
  cases (Reader.Place.document none).noted (Cursor.ofText text).events with
  | cons entry rest => rfl
  | nil =>
    cases (Reader.Place.document none).reached (Cursor.ofText text).events with
    | error reason => rfl
    | ok place =>
      cases (Cursor.ofText text).ending with
      | error entry => rfl
      | ok offset =>
        simp only [Except.map, Except.bind, mapError_ok]
        cases place.finish <;> rfl

/-- What is reported under either policy is the content of the document with all that is
irregular in it. -/
theorem of_ofChars {policy : Policy} {text : List Char} {report : Report}
    (h : ofChars policy text = .ok report) :
    contentOf text = .ok report.catalog ∧ report.warnings = irregularities text := by
  have lenient (h : ofChars .lenient text = .ok report) :
      contentOf text = .ok report.catalog ∧ report.warnings = irregularities text := by
    rw [ofChars_lenient] at h
    split at h
    next catalog content =>
      injection h with h
      exact h ▸ ⟨content, rfl⟩
    next => exact absurd h (by simp)
  cases policy with
  | lenient => exact lenient h
  | strict =>
    rw [ofChars_strict] at h
    split at h
    · exact absurd h (by simp)
    · exact lenient h

/-- The two policies agree up to the first irregularity. A document that the
lenient policy reads without a warning is read alike by the strict one; the
first warning is what the strict policy refuses a document for; what the
lenient policy cannot read the strict policy cannot either; and what the strict
policy reads the lenient one reads without a warning. -/
theorem strict_agrees_with_lenient (text : String) :
    (∀ report, ofText .lenient text = .ok report → report.warnings = [] →
      ofText .strict text = .ok report) ∧
    (∀ report first rest, ofText .lenient text = .ok report →
      report.warnings = first :: rest →
      ofText .strict text = .error (.irregular first.position first.reason)) ∧
    (∀ fault, ofText .lenient text = .error fault →
      ofText .strict text = .error fault ∨
        ∃ position reason, ofText .strict text = .error (.irregular position reason)) ∧
    (∀ report, ofText .strict text = .ok report →
      ofText .lenient text = .ok ⟨report.catalog, []⟩) := by
  unfold ofText
  generalize withoutByteOrderMark text.toList = chars
  have strict := ofChars_strict chars
  have lenient := ofChars_lenient chars
  refine ⟨?_, ?_, ?_, ?_⟩
  · intro report read none
    have same : irregularities chars = report.warnings := by
      rw [read] at lenient
      split at lenient <;> simp_all
    rw [strict, same, none]
    exact read
  · intro report first rest read some
    have same : irregularities chars = report.warnings := by
      rw [read] at lenient
      split at lenient <;> simp_all
    rw [strict, same, some]
  · intro fault refused
    cases noticed : irregularities chars with
    | nil =>
      left
      rw [strict, noticed]
      exact refused
    | cons first rest =>
      right
      refine ⟨first.position, first.reason, ?_⟩
      rw [strict, noticed]
  · intro report read
    cases noticed : irregularities chars with
    | nil =>
      rw [strict, noticed] at read
      dsimp only at read
      have none : report.warnings = [] := by
        rw [read] at lenient
        split at lenient <;> simp_all
      rw [read, ← none]
    | cons first rest =>
      rw [strict, noticed] at read
      exact absurd read (by simp)

end Report

end MessageCatalog
